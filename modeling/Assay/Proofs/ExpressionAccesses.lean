import Assay.Proofs.ExpressionGrammar
import Assay.Proofs.LookaheadEnds

/-!
# The accesses of an expression

An expression is passed over part by part, and what the parts record together are the accesses that
its grammar gives it. Each rule of the grammar has a lemma on the parts it adds; the induction on
the derivation is `Accesses.passes`.
-/

namespace Assay.Source

variable {owner : String} {ts es as rest : List Token} {facts fs : List Fact}
  {t l r x arrow : Token}

/-- The separators, one of which may end an expression. -/
def separators : List String := [")", "]", "\x7d", ";", ",", ":"]

/-! ## Parentheses -/

/-- Where no type starts there are no bounds. -/
theorem boundsRest?_none (h : typeRest? ts = none) : boundsRest? ts = none := by
  rw [boundsRest?_eq, h, Option.bind_none]

/-- Bounds end behind a type that no ampersand follows. -/
theorem boundsRest?_done (h : typeRest? ts = some (t :: rest)) (ht : t.spells "&" = false) :
    boundsRest? ts = some (t :: rest) := by
  rw [boundsRest?_eq, h, Option.bind_some, begins_cons, ht, if_neg Bool.false_ne_true]

/-- One of some signs is spelled as no other word. -/
theorem Token.IsSignOf.spells {signs : List String} (h : t.IsSignOf signs) {word : String}
    (hword : word ∉ signs) : t.spells word = false := by
  have hne : t.text ≠ word := fun heq => hword (heq ▸ h.2)
  simp [Token.spells, hne]

/-- What can follow a value is not the operand of a cast. -/
theorem Token.IsSignOf.not_operand (h : t.IsSignOf valueFollowers) :
    startsCastOperand false t = false := by
  have hnone : ∀ sign ∈ valueFollowers, sign ∉ castOperandOperators := by decide
  simp [startsCastOperand, h.isSign.isLiteral, h.isSign.isIdentifier, hnone _ h.2]

/-- An expression in parentheses is not the type of a cast. -/
theorem Accesses.castRest?_eq_none (h : Accesses owner .expression es facts) (hr : r.IsSign ")")
    (hrest : Follows valueFollowers rest) : castRest? (es ++ r :: rest) = none := by
  have hprimitive : startsWith (·.isPrimitive) (es ++ r :: rest) = false := by
    have hstarts := startsWith_append (h.starts (by simp)) (r :: rest)
    cases hes : es ++ r :: rest with
    | nil => rfl
    | cons u us =>
      rw [hes, startsWith_cons, Token.startsExpression, Bool.and_eq_true] at hstarts
      simpa using hstarts.2
  have hfollows : Follows expressionFollowers (r :: rest) :=
    ⟨r, rest, rfl, hr.isSignOf (by decide)⟩
  rcases h.typeEndsIn (r :: rest) fun _ => hfollows with hnone | ⟨u, us, heq, hu⟩
  · rw [castRest?, boundsRest?_none hnone]
  · rcases hu with hu | ⟨-, heq'⟩
    · rw [castRest?, boundsRest?_done heq (hu.spells (by decide))]
      cases us with
      | nil => rfl
      | cons operand more => simp [hu.spells (by decide : ")" ∉ joints)]
    · cases heq'
      obtain ⟨operand, more, rfl, hoperand⟩ := hrest
      rw [castRest?, boundsRest?_done heq (by simp [hr.spells])]
      simp [hprimitive, hoperand.not_operand]

/-- What stands before the arrow of a lambda expression, and the names that it declares. -/
inductive LambdaHead : List Token → List Token → Prop
  | name {x : Token} (hx : x.IsIdentifier) : LambdaHead [x] [x]
  | list {l r : Token} {ps : List Token} (hl : l.IsSign "(") (hps : Bracketed ps)
      (hr : r.IsSign ")") : LambdaHead (lambdaParameters 0 [] ps) (l :: (ps ++ [r]))

/-- The parameters of a lambda are the names of its groups. -/
theorem lambdaParameters_parameters {xs : List Token} (h : Parameters xs ts) :
    lambdaParameters 0 [] ts = xs := by
  induction h with
  | none => rfl
  | one hx => simp [lambdaParameters, hx.spells_signs, hx.isName]
  | more hx hcomma _ ih =>
    simp [lambdaParameters, hx.spells_signs, hx.isName, hcomma.spells, ih]

namespace Parser

variable {nested : Construct → Parser Unit} {stop : List String} {s : Scope}

/-- Parentheses that neither an arrow follows nor the operand of a cast. -/
theorem fromParenthesis_group (hl : l.IsSign "(") (hr : r.IsSign ")") (hbrackets : Bracketed es)
    (hinside : Inside nested s es facts) (harrow : begins "->" rest = false)
    (hcast : castRest? (es ++ r :: rest) = none) :
    fromParenthesis nested (es ++ r :: rest) s (l :: (es ++ r :: rest)) =
      .ok ⟨false, facts, rest⟩ := by
  have hgroup := groupAhead_bracketed s (hl.opens rfl) (hr.closes (by decide)) hbrackets rest
  simp [fromParenthesis, bind_apply, hgroup, harrow, hcast, parenthesized_apply hl hr hinside]

/-- A parenthesised expression is read as a group, and its facts are recorded. -/
theorem fromParenthesis_expression (hl : l.IsSign "(") (hr : r.IsSign ")")
    (hes : Accesses owner .expression es facts) (hinside : Inside nested s es facts)
    (hrest : Follows valueFollowers rest) :
    fromParenthesis nested (es ++ r :: rest) s (l :: (es ++ r :: rest)) =
      .ok ⟨false, facts, rest⟩ :=
  fromParenthesis_group hl hr hes.counted.bracketed hinside (hrest.spells (by decide))
    (hes.castRest?_eq_none hr hrest)

/-- A parenthesised group before an arrow is read as parameters of a lambda. -/
theorem fromParenthesis_lambda (hl : l.IsSign "(") (hr : r.IsSign ")") (hts : Bracketed ts)
    (harrow : arrow.IsSign "->") :
    fromParenthesis nested (ts ++ r :: arrow :: rest) s (l :: (ts ++ r :: arrow :: rest)) =
      .ok ⟨true, (lambdaParameters 0 [] ts).flatMap (declaredValue .parameter s.owner),
        arrow :: rest⟩ := by
  have hgroup := groupAhead_bracketed s (hl.opens rfl) (hr.closes (by decide)) hts (arrow :: rest)
  simp [fromParenthesis, bind_apply, hgroup, harrow.spells, forM_declareValue]

/-! ## Parts -/

/-- A sign that is no closer and no stop word ends no expression. -/
theorem not_ends_of_isSign {sign : String} (h : t.IsSign sign) (hclose : sign ∉ closers)
    (hstop : sign ∉ stop) : ¬ Ends stop t := by
  have htext : t.text ∉ stop := h.2 ▸ hstop
  simp [Ends, h.isCloser, hclose, htext]

/-- A word ends no expression. -/
theorem not_ends_of_isWord {word : String} (h : t.IsWord word) : ¬ Ends stop t := by
  simp [Ends, h.isPlain.2, h.isOperator]

/-- No sign but a separator ends an expression. -/
theorem not_ends_of_not_separator {sign : String} (hstop : stop ⊆ separators) (h : t.IsSign sign)
    (hsign : sign ∉ separators) : ¬ Ends stop t := by
  have hclosers : closers ⊆ separators := by decide
  exact not_ends_of_isSign h (fun hmem => hsign (hclosers hmem)) fun hmem => hsign (hstop hmem)

/-- A sign that starts no part and does not end the expression is passed over. -/
theorem passes_sign {sign : String} (h : t.IsSign sign) (hplain : sign ∉ partWords)
    (hends : sign ∉ closers ∧ sign ∉ stop) (rest : List Token) :
    Passes nested stop s [t] [] rest := by
  refine .of_part (not_ends_of_isSign h hends.1 hends.2) fun afterArrow =>
    expressionPart_skipped h.isName (fun word hw => ?_) afterArrow
  have hne : sign ≠ word := fun heq => hplain (heq ▸ hw)
  simp [h.spells, hne]

/-- A name starts a chain of names, unless an arrow follows that does not end the expression. -/
theorem passes_nameChain_guarded (ht : t.IsIdentifier)
    (harrow : begins "->" (ts ++ rest) → "->" ∈ stop)
    (h : nameChain nested s (t :: (ts ++ rest)) = .ok ⟨(), facts, rest⟩) :
    Passes nested stop s (t :: ts) facts rest := by
  refine .of_part (not_ends_of_isIdentifier ht) fun afterArrow => ?_
  have hguard : ¬ (begins "->" (ts ++ rest) ∧ "->" ∉ stop) := fun hlambda =>
    hlambda.2 (harrow hlambda.1)
  simp [expressionPart, bind_apply, ht.spells_signs, ht.spells_words, ht.isName, hguard, h]

/-- A name that no arrow follows starts a chain of names. -/
theorem passes_nameChain (ht : t.IsIdentifier) (harrow : begins "->" (ts ++ rest) = false)
    (h : nameChain nested s (t :: (ts ++ rest)) = .ok ⟨(), facts, rest⟩) :
    Passes nested stop s (t :: ts) facts rest :=
  passes_nameChain_guarded ht (by simp [harrow]) h

/-- A dot starts a selection. -/
theorem passes_dot {dot : Token} (hstop : stop ⊆ separators) (hdot : dot.IsSign ".")
    (h : selector nested s (dot :: (ts ++ rest)) = .ok ⟨(), facts, rest⟩) :
    Passes nested stop s (dot :: ts) facts rest := by
  refine .of_part (not_ends_of_not_separator hstop hdot (by decide)) fun afterArrow => ?_
  simp [expressionPart, bind_apply, hdot.spells, h]

/-- A dot and a selected name pass. -/
theorem passes_selector {dot n : Token} (hstop : stop ⊆ separators) (hdot : dot.IsSign ".")
    (hn : n.IsIdentifier)
    (h : selected nested "" .expression s (n :: (ts ++ rest)) = .ok ⟨(), facts, rest⟩) :
    Passes nested stop s (dot :: n :: ts) facts rest :=
  passes_dot hstop hdot ((selector_apply hdot hn).trans h)

/-- `this` and `super` pass. -/
theorem passes_thisOrSuper (receiver : Receiver) (ht : t.IsWord receiver.word)
    (h : thisOrSuper nested s (t :: (ts ++ rest)) = .ok ⟨(), facts, rest⟩) :
    Passes nested stop s (t :: ts) facts rest := by
  refine .of_part (not_ends_of_isWord ht) fun afterArrow => ?_
  cases receiver <;> simp [expressionPart, bind_apply, ht.spells, Receiver.word, h]

/-- `this` and `super` pass with the member selected from them. -/
theorem passes_receiver {dot n : Token} (receiver : Receiver) (ht : t.IsWord receiver.word)
    (hdot : dot.IsSign ".") (hn : n.IsIdentifier)
    (h : selected nested receiver.word receiver.kind s (n :: (ts ++ rest)) =
      .ok ⟨(), facts, rest⟩) :
    Passes nested stop s (t :: dot :: n :: ts) facts rest :=
  passes_thisOrSuper receiver ht ((thisOrSuper_selected receiver ht hdot hn).trans h)

/-- The constants `true`, `false` and `null` pass. -/
theorem passes_constant {word : String} (ht : t.IsWord word)
    (hword : word ∈ ["true", "false", "null"]) : Passes nested stop s [t] [] rest := by
  refine .of_part (not_ends_of_isWord ht) fun afterArrow => ?_
  have hname : t.isName = false := by simp [ht.isName, (constant_words _ hword).2.2]
  refine expressionPart_skipped hname (fun other hother => ?_) afterArrow
  have hne : ∀ word ∈ ["true", "false", "null"], ∀ other ∈ partWords, word ≠ other := by decide
  simp [ht.spells, hne _ hword _ hother]

/-- A creation passes where it is read. -/
theorem passes_new (ht : t.IsWord "new")
    (h : creation nested s (t :: (ts ++ rest)) = .ok ⟨(), facts, rest⟩) :
    Passes nested stop s (t :: ts) facts rest := by
  refine .of_part (not_ends_of_isWord ht) fun afterArrow => ?_
  simp [expressionPart, bind_apply, ht.spells, h]

/-- A creation of a class with its arguments passes. -/
theorem passes_creation {c : Token} (ht : t.IsWord "new") (hc : c.IsIdentifier)
    (hl : l.IsSign "(") (hr : r.IsSign ")") (has : Inside nested s as facts)
    (hrest : begins "\x7b" rest = false) :
    Passes nested stop s (t :: c :: l :: (as ++ [r])) facts rest :=
  passes_new ht (by simpa using creation_apply ht hc hl hr has hrest)

/-- A parenthesis that starts neither a lambda expression nor a cast. -/
theorem passes_parenthesis (hstop : "(" ∉ stop) (hl : l.IsSign "(")
    (h : fromParenthesis nested (ts ++ rest) s (l :: (ts ++ rest)) = .ok ⟨false, facts, rest⟩) :
    Passes nested stop s (l :: ts) facts rest := by
  refine .of_part (not_ends_of_isSign hl (by decide) hstop) fun afterArrow => ?_
  simp [expressionPart, bind_apply, hl.spells, h]

/-- A parenthesised expression passes where a value may be followed so. -/
theorem passes_parenthesized (hstop : stop ⊆ separators) (hl : l.IsSign "(") (hr : r.IsSign ")")
    (hes : Accesses owner .expression es facts) (hinside : Inside nested s es facts)
    (hrest : Follows valueFollowers rest) :
    Passes nested stop s (l :: (es ++ [r])) facts rest :=
  passes_parenthesis (fun hmem => absurd (hstop hmem) (by decide)) hl
    (by simpa using fromParenthesis_expression hl hr hes hinside hrest)

/-- An index in brackets passes. -/
theorem passes_element (hstop : stop ⊆ separators) (hl : l.IsSign "[") (hr : r.IsSign "]")
    (hinside : Inside nested s es facts) :
    Passes nested stop s (l :: (es ++ [r])) facts rest := by
  refine .of_part (not_ends_of_not_separator hstop hl (by decide)) fun afterArrow => ?_
  have hread := hinside r rest (hr.closes (by decide)).1
  simp [expressionPart, bind_apply, hl.spells, hread, expect_cons, hr.spells]

/-- An arrow is skipped, and what follows it may be a block. -/
theorem iterate_arrow (hstop : stop ⊆ separators) (h : arrow.IsSign "->") (afterArrow : Bool)
    (ts : List Token) :
    iterate (expressionRound nested stop) afterArrow s (arrow :: ts) =
      iterate (expressionRound nested stop) true s ts := by
  have hends : ¬ Ends stop arrow := not_ends_of_not_separator hstop h (by decide)
  have hpart : expressionPart nested stop afterArrow arrow ts s (arrow :: ts) =
      .ok ⟨true, [], ts⟩ := by
    simp [expressionPart, bind_apply, h.spells]
  rw [round_of_part hends hpart (Nat.le_refl _), recording_nil]

/-- The parameters of a lambda expression are declared, and what follows the arrow may be a block. -/
theorem iterate_lambda {xs ps : List Token} (hstop : stop ⊆ separators) (hps : LambdaHead xs ps)
    (harrow : arrow.IsSign "->") (afterArrow : Bool) (ts : List Token) :
    iterate (expressionRound nested stop) afterArrow s (ps ++ arrow :: ts) =
      recording (xs.flatMap (declaredValue .parameter s.owner))
        (iterate (expressionRound nested stop) true s ts) := by
  cases hps with
  | @name x hx =>
    have hmem : "->" ∉ stop := fun hmem => absurd (hstop hmem) (by decide)
    have hpart : expressionPart nested stop afterArrow x (arrow :: ts) s (x :: arrow :: ts) =
        .ok ⟨false, [x].flatMap (declaredValue .parameter s.owner), arrow :: ts⟩ := by
      simp [expressionPart, bind_apply, hx.spells_signs, hx.spells_words, hx.isName, harrow.spells,
        hmem, name_cons hx.isName]
    rw [List.singleton_append, round_of_part (not_ends_of_isIdentifier hx) hpart (Nat.le_refl _),
      iterate_arrow hstop harrow]
  | @list l r ps hl hps hr =>
    have hpart : expressionPart nested stop afterArrow l (ps ++ r :: arrow :: ts) s
        (l :: (ps ++ r :: arrow :: ts)) = .ok ⟨afterArrow,
          (lambdaParameters 0 [] ps).flatMap (declaredValue .parameter s.owner), arrow :: ts⟩ := by
      have hread : fromParenthesis nested (ps ++ r :: arrow :: ts) s _ = _ :=
        fromParenthesis_lambda hl hr hps harrow
      simp [expressionPart, bind_apply, hl.spells, hread]
    rw [List.cons_append, List.append_assoc, List.singleton_append,
      round_of_part (not_ends_of_not_separator hstop hl (by decide)) hpart (by simp; omega),
      iterate_arrow hstop harrow]

/-- A lambda passes, with its parameters before the facts of its body. -/
theorem passes_lambda {xs ps : List Token} (hstop : stop ⊆ separators) (hps : LambdaHead xs ps)
    (harrow : arrow.IsSign "->") (hes : Passes nested stop s es facts rest) :
    Passes nested stop s (ps ++ arrow :: es)
      (xs.flatMap (declaredValue .parameter s.owner) ++ facts) rest := by
  intro afterArrow
  rw [List.append_assoc, List.cons_append, iterate_lambda hstop hps harrow, hes true,
    recording_recording]

/-- A method reference is passed over. -/
theorem passes_methodReference {c colons n : Token} (hstop : stop ⊆ separators)
    (hc : c.IsIdentifier) (hcolons : colons.IsSign "::") (hn : n.IsIdentifier) :
    Passes nested stop s [c, colons, n] [] rest := by
  have hname : Passes nested stop s [c] [] (colons :: n :: rest) := by
    refine passes_nameChain hc (by simp [hcolons.spells]) ?_
    exact nameChain_fields hc .nil (by simp [hcolons.spells]) (by simp [hcolons.spells])
  have hmethod : Passes nested stop s [colons, n] [] rest := by
    refine .of_part (not_ends_of_not_separator hstop hcolons (by decide)) fun afterArrow => ?_
    have hargs : skipOptionalTypeArguments s (n :: rest) = .ok ⟨(), [], n :: rest⟩ :=
      skipOptionalTypeArguments_of_not_less (by simp [hn.spells_signs])
    simp [expressionPart, bind_apply, hcolons.spells, hargs]
  exact hname.append hmethod

/-- A comma passes where no stop words are set. -/
theorem passes_comma (h : t.IsSign ",") : Passes nested [] s [t] [] rest :=
  passes_sign h (by decide) (by decide) rest

/-! ## Phrases -/

/-- How a phrase of a given shape is read in a scope, whatever is written after it. -/
def Reads (nested : Construct → Parser Unit) (s : Scope) (facts : List Fact) :
    Shape → List Token → Prop
  | .expression, ts => ∀ stop rest, stop ⊆ separators → Follows expressionFollowers rest →
      Passes nested stop s ts facts rest
  | .value, ts => ∀ stop rest, stop ⊆ separators → Follows valueFollowers rest →
      Passes nested stop s ts facts rest
  | .member qualifier kind, ts => ∃ n us, ts = n :: us ∧ n.IsIdentifier ∧
      ∀ rest, Follows valueFollowers rest →
        selected nested qualifier kind s (n :: (us ++ rest)) = .ok ⟨(), facts, rest⟩
  | .arguments _, ts => ∀ r rest, r.isCloser → Passes nested [] s ts facts (r :: rest)

/-- A closer may follow any expression. -/
theorem follows_of_isCloser (h : r.isCloser) (rest : List Token) :
    Follows expressionFollowers (r :: rest) :=
  ⟨r, rest, rfl, (Token.IsSignOf.of_isCloser h).mono (by decide)⟩

/-- What may follow an expression may follow a value. -/
theorem follows_value (h : Follows expressionFollowers rest) : Follows valueFollowers rest :=
  h.mono (by decide)

/-- What is passed over up to any closing bracket can be read inside brackets, one construct
deeper. -/
theorem inside_of_passes {depth : Nat} (hdepth : ts.length < depth)
    (h : ∀ d, ts.length ≤ d → ∀ r rest, r.isCloser →
      Passes (construct d) [] s ts facts (r :: rest)) :
    Inside (construct depth) s ts facts := by
  obtain ⟨d, rfl⟩ : ∃ d, depth = d + 1 := ⟨depth - 1, by omega⟩
  exact fun r rest hr => (h d (by omega) r rest hr).expression (by simp [Ends, hr])

/-- What a budget reads as an expression it reads inside brackets as well. -/
theorem inside_of_reads {depth : Nat} (hdepth : es.length < depth)
    (h : ∀ d, es.length ≤ d → Reads (construct d) s facts .expression es) :
    Inside (construct depth) s es facts :=
  inside_of_passes hdepth fun d hd r rest hr =>
    h d hd [] (r :: rest) (by simp) (follows_of_isCloser hr rest)

end Parser

open Assay.Source.Parser

/-- Behind the segments of a name a token starts what it started before, unless it is the dot. -/
theorem Segments.begins {names : List String} (h : Segments ts names) {word : String}
    (hword : word ≠ ".") (hrest : begins word rest = false) :
    Source.begins word (ts ++ rest) = false := by
  cases h with
  | nil => exact hrest
  | cons hdot => simp [hdot.spells, Ne.symm hword]

/-- A phrase is read as its grammar says, if as many constructs may be open as it has tokens. -/
theorem Accesses.reads {shape : Shape} (h : Accesses owner shape ts facts) {s : Scope}
    (hs : s.owner = owner) (depth : Nat) (hdepth : ts.length ≤ depth) :
    Reads (construct depth) s facts shape ts := by
  -- the phrases of the grammar are read together: values and expressions pass in the rounds of an
  -- expression, members behind a dot in one step, and arguments between parentheses. What stands in
  -- brackets is read with one construct less, and has fewer tokens
  induction h generalizing depth with
  -- values: each says what may follow it, so that no round takes it for something longer
  | literal ht => exact fun stop rest _ _ => passes_literal ht rest
  | constant ht hword => exact fun stop rest _ _ => passes_constant ht hword
  | string ht => exact fun stop rest _ _ => passes_literal (Token.isLiteral_of_string ht) rest
  | chain ht hts =>
    intro stop rest _ hrest
    refine passes_nameChain ht (hts.begins (by decide) (hrest.spells (by decide))) ?_
    exact nameChain_fields ht hts (hrest.spells (by decide)) (hrest.spells (by decide))
  | @chainCall t l r ts as names arity facts ht hts hl has hr ih =>
    simp only [List.length_cons, List.length_append, List.length_nil] at hdepth
    intro stop rest hstop hrest
    have hinside : Inside (construct depth) s as facts := inside_of_passes (by omega) ih
    have hread := nameChain_call ht hts hl hr has.counted.1 hinside rest
    rw [has.counted.2] at hread
    -- the arguments that are counted are those of the grammar
    refine passes_nameChain ht ?_ (by simpa using hread)
    rw [List.append_assoc]
    exact hts.begins (by decide) (by simp [hl.spells])
  -- members behind a dot
  | field hn =>
    refine ⟨_, [], rfl, hn, fun rest hrest => ?_⟩
    exact selected_field hn (hrest.spells (by decide)) _ _
  | @method n l r as qualifier kind arity facts hn hl has hr ih =>
    simp only [List.length_cons, List.length_append, List.length_nil] at hdepth
    refine ⟨n, _, rfl, hn, fun rest hrest => ?_⟩
    have hinside : Inside (construct depth) s as facts := inside_of_passes (by omega) ih
    have hread := selected_call hn hl hr has.counted.1 hinside qualifier kind rest
    rw [has.counted.2] at hread
    simpa using hread
  | received receiver ht hdot _ ih =>
    simp only [List.length_cons] at hdepth
    intro stop rest hstop hrest
    obtain ⟨n, us, rfl, hn, hread⟩ := ih depth (by omega)
    exact passes_receiver receiver ht hdot hn (hread rest hrest)
  -- a value goes on with what is selected from it: the dot or the bracket may follow a value
  | selection _ hdot _ ihps ihms =>
    simp only [List.length_cons, List.length_append] at hdepth
    intro stop rest hstop hrest
    obtain ⟨n, us, rfl, hn, hread⟩ := ihms depth (by omega)
    refine (ihps depth (by omega) stop _ hstop ?_).append
      (passes_selector hstop hdot hn (hread rest hrest))
    exact ⟨_, _, rfl, hdot.isSignOf (by decide)⟩
  | @element l r ps es fs facts _ hl _ hr ihps ihes =>
    simp only [List.length_cons, List.length_append, List.length_nil] at hdepth
    intro stop rest hstop hrest
    have hinside : Inside (construct depth) s es facts := inside_of_reads (by omega) ihes
    refine (ihps depth (by omega) stop _ hstop ?_).append (passes_element hstop hl hr hinside)
    exact ⟨_, _, rfl, hl.isSignOf (by decide)⟩
  | @chainElement t l r ts es names facts ht hts hl _ hr ih =>
    simp only [List.length_cons, List.length_append, List.length_nil] at hdepth
    intro stop rest hstop hrest
    have hinside : Inside (construct depth) s es facts := inside_of_reads (by omega) ih
    have hchain : Passes (construct depth) stop s (t :: ts) (chainAccesses t.line [t.text] names)
        (l :: (es ++ [r]) ++ rest) := by
      refine passes_nameChain ht (hts.begins (by decide) (by simp [hl.spells])) ?_
      exact nameChain_fields ht hts (by simp [hl.spells]) (by simp [hl.spells])
    exact hchain.append (passes_element hstop hl hr hinside)
  | @creation new c l r as arity facts hnew hc hl _ hr ih =>
    simp only [List.length_cons, List.length_append, List.length_nil] at hdepth
    intro stop rest hstop hrest
    have hinside : Inside (construct depth) s as facts := inside_of_passes (by omega) ih
    exact passes_creation hnew hc hl hr hinside (hrest.spells (by decide))
  | @parenthesized l r es facts hl hes hr ih =>
    simp only [List.length_cons, List.length_append, List.length_nil] at hdepth
    intro stop rest hstop hrest
    have hinside : Inside (construct depth) s es facts := inside_of_reads (by omega) ih
    exact passes_parenthesized hstop hl hr hes hinside hrest
  -- expressions: they end where no operator follows
  | value _ ih =>
    exact fun stop rest hstop hrest => ih depth hdepth stop rest hstop (follows_value hrest)
  | @binary op ds es fs facts _ hop _ ihds ihes =>
    simp only [List.length_cons, List.length_append] at hdepth
    intro stop rest hstop hrest
    -- no operator is a separator, so it ends no expression
    have hmem : ∀ op ∈ binaryOperators, op ∉ separators := by decide
    have hoperator : Passes (construct depth) stop s [op] [] (es ++ rest) :=
      passes_binary hop (fun h => hmem _ hop.2 (hstop h)) _
    refine (ihds depth (by omega) stop _ hstop ?_).append
      (hoperator.append (ihes depth (by omega) stop rest hstop hrest))
    exact ⟨op, _, rfl, hop.1, List.mem_append_right _ hop.2⟩
  | lambda hx harrow _ ih =>
    simp only [List.length_cons] at hdepth
    intro stop rest hstop hrest
    subst hs
    exact passes_lambda hstop (.name hx) harrow (ih depth (by omega) stop rest hstop hrest)
  | lambdaList hl hps hr harrow _ ih =>
    simp only [List.length_cons, List.length_append] at hdepth
    intro stop rest hstop hrest
    subst hs
    have hread := passes_lambda hstop (.list hl hps.bracketed hr) harrow
      (ih depth (by omega) stop rest hstop hrest)
    rw [lambdaParameters_parameters hps] at hread
    simpa using hread
  | methodReference hc hcolons hn =>
    exact fun stop rest hstop _ => passes_methodReference hstop hc hcolons hn
  -- arguments are one expression without stop words, in which commas pass as tokens of no part
  | noArguments =>
    intro r rest hr afterArrow
    have hends : Ends [] r := by simp [Ends, hr]
    rw [List.nil_append, expression_done hends, expression_done hends, recording_nil]
  | argument _ ih =>
    exact fun r rest hr => ih depth hdepth [] (r :: rest) (by simp) (follows_of_isCloser hr rest)
  | @moreArguments comma es as count fs facts _ hcomma _ ihes ihas =>
    simp only [List.length_cons, List.length_append] at hdepth
    intro r rest hr
    have hskipped : Passes (construct depth) [] s [comma] [] (as ++ r :: rest) :=
      passes_comma hcomma
    refine (ihes depth (by omega) [] _ (by simp) ?_).append
      (hskipped.append (ihas depth (by omega) r rest hr))
    exact ⟨comma, _, rfl, hcomma.isSignOf (by decide)⟩

/-- An expression that a semicolon follows is read up to the semicolon, and what it records is
exactly what its grammar gives it, in reading order. -/
theorem expression_accesses (s : Scope) {semicolon : Token} {depth : Nat}
    (h : Accesses s.owner .expression es facts) (hsemicolon : semicolon.IsSign ";")
    (hdepth : es.length ≤ depth) (rest : List Token) :
    expression (construct depth) [";"] s (es ++ semicolon :: rest) =
      .ok ⟨(), facts, semicolon :: rest⟩ := by
  have hends : Ends [";"] semicolon := by
    simp [Ends, hsemicolon.isOperator, hsemicolon.2]
  have hfollows : Follows expressionFollowers (semicolon :: rest) :=
    ⟨semicolon, rest, rfl, hsemicolon.isSignOf (by decide)⟩
  exact (h.reads rfl depth hdepth [";"] _ (by decide) hfollows).expression hends

/-- The accesses of `a.b(x, this.f).c`, the call before the access in its arguments. -/
theorem expression_accesses_selection :
    expression (construct 12) [";"] ⟨some ⟨"N", .classType⟩, 1⟩
        [.word "a" 1, .sign "." 1, .word "b" 1, .sign "(" 1, .word "x" 1, .sign "," 1,
          .word "this" 1, .sign "." 1, .word "f" 1, .sign ")" 1, .sign "." 1, .word "c" 1,
          .sign ";" 1] =
      .ok ⟨(), [methodAccess "b" "a" .name 1 2, fieldAccess "f" "this" .this 1,
        fieldAccess "c" "" .expression 1], [.sign ";" 1]⟩ := by
  have hthis : Accesses "N" .expression [.word "this" 1, .sign "." 1, .word "f" 1]
      [fieldAccess "f" "this" .this 1] :=
    .value (.received .this ⟨rfl, rfl⟩ ⟨rfl, rfl⟩ (.field (by decide)))
  have hcall : Accesses "N" .value _ _ :=
    .chainCall (.intro (by decide) (by decide) : (Token.word "a" 1).IsIdentifier)
      (.cons (⟨rfl, rfl⟩ : (Token.sign "." 1).IsSign ".")
        (by decide : (Token.word "b" 1).IsIdentifier) .nil)
      (⟨rfl, rfl⟩ : (Token.sign "(" 1).IsSign "(")
      (.moreArguments (.chain (by decide : (Token.word "x" 1).IsIdentifier) .nil)
        (⟨rfl, rfl⟩ : (Token.sign "," 1).IsSign ",") (.argument hthis))
      (⟨rfl, rfl⟩ : (Token.sign ")" 1).IsSign ")")
  have hselection : Accesses "N" .expression _ _ :=
    .value (.selection hcall (⟨rfl, rfl⟩ : (Token.sign "." 1).IsSign ".")
      (.field (by decide : (Token.word "c" 1).IsIdentifier)))
  have hread := expression_accesses ⟨some ⟨"N", .classType⟩, 1⟩ hselection
    (⟨rfl, rfl⟩ : (Token.sign ";" 1).IsSign ";") (by decide : _ ≤ 12) []
  simpa [chainCall, chainAccesses, Token.word] using hread

end Assay.Source
