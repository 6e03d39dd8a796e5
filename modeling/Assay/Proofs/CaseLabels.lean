import Assay.Proofs.CastOperands
import Assay.Proofs.SharedStart

/-!
# The labels of a switch

A label is read as an expression that a colon or an arrow ends. Elsewhere an arrow belongs to a
lambda expression: behind a name it is told by the signs that end the expression, but behind a
closing parenthesis it is not, so an expression in parentheses directly before the arrow of a label
is taken for parameters. `ConstantExpression` keeps apart the expressions that end so. The others
declare nothing, and a switch written with arrows records what it records with colons
(`case_labels`).
-/

namespace Assay.Source

open Assay.Source.Parser

variable {nested : Construct → Parser Unit} {stop : List String} {s : Scope} {depth depth' : Nat}
  {t l r mark colon arrow : Token} {es ls ops hs bs cs as rest : List Token}
  {facts fs gs : List Fact} {closed : Bool}

/-! ## Grammar -/

/-- The signs of operators between operands. -/
def operatorSigns : List String :=
  ["+", "-", "*", "/", "%", "==", "!=", "&&", "||", "<", ">", "<=", ">=", "<<", "&", "|", "^"]

/-- An operator between operands: a sign, or a shift to the right. -/
inductive Operator : List Token → Prop
  | sign {t : Token} (ht : t.IsSignOf operatorSigns) : Operator [t]
  | shift {t u : Token} (ht : t.IsSign ">") (hu : u.IsSign ">") : Operator [t, u]
  | unsignedShift {t u v : Token} (ht : t.IsSign ">") (hu : u.IsSign ">") (hv : v.IsSign ">") :
      Operator [t, u, v]

/-- The tokens are a constant expression, and the facts are its accesses; it is closed if it ends
with a parenthesis. -/
inductive ConstantExpression : Bool → List Token → List Fact → Prop
  | literal {t : Token} (ht : t.isLiteral) : ConstantExpression false [t] []
  | constant {t : Token} {word : String} (ht : t.IsWord word)
      (hword : word ∈ ["true", "false", "null"]) : ConstantExpression false [t] []
  | chain {t : Token} {ts : List Token} {names : List String} (ht : t.IsIdentifier)
      (hts : Segments ts names) :
      ConstantExpression false (t :: ts) (chainAccesses t.line [t.text] names)
  | binary {first closed : Bool} {ds ops es : List Token} {fs gs : List Fact}
      (hds : ConstantExpression first ds fs) (hops : Operator ops)
      (hes : ConstantExpression closed es gs) :
      ConstantExpression closed (ds ++ (ops ++ es)) (fs ++ gs)
  | parenthesized {closed : Bool} {l r : Token} {es : List Token} {facts : List Fact}
      (hl : l.IsSign "(") (hes : ConstantExpression closed es facts) (hr : r.IsSign ")") :
      ConstantExpression true (l :: (es ++ [r])) facts

/-- Constant expressions, separated by commas, of which the last may be closed. -/
inductive CaseLabels : Bool → List Token → List Fact → Prop
  | one {closed : Bool} {es : List Token} {facts : List Fact}
      (hes : ConstantExpression closed es facts) : CaseLabels closed es facts
  | more {first closed : Bool} {comma : Token} {es ls : List Token} {fs gs : List Fact}
      (hes : ConstantExpression first es fs) (hcomma : comma.IsSign ",")
      (hls : CaseLabels closed ls gs) : CaseLabels closed (es ++ comma :: ls) (fs ++ gs)

/-- What stands before the colon or arrow of a row: labels of which the last is not closed, or
`default`. -/
inductive RowHead : List Token → List Fact → Prop
  | case {t : Token} {ls : List Token} {facts : List Fact} (ht : t.IsWord "case")
      (hls : CaseLabels false ls facts) : RowHead (t :: ls) facts
  | default {t : Token} (ht : t.IsWord "default") : RowHead [t] []

/-- A block that can be read on its own, and what it records. -/
inductive BlockBody (depth : Nat) (s : Scope) : List Token → List Fact → Prop
  | mk {l r : Token} {inside : List Token} {facts : List Fact} (hl : l.IsSign "\x7b")
      (hinside : Bracketed inside) (hlexical : Lexical inside) (hr : r.IsSign "\x7d")
      (hread : block (construct depth) s (l :: (inside ++ [r])) = .ok ⟨(), facts, []⟩) :
      BlockBody depth s (l :: (inside ++ [r])) facts

/-- The rows of a switch, each with a block behind it, written with colons and written with arrows,
and what they record. -/
inductive SwitchRows (depth : Nat) (s : Scope) : List Token → List Token → List Fact → Prop
  | none : SwitchRows depth s [] [] []
  | row {colon arrow : Token} {hs bs cs as : List Token} {fs gs facts : List Fact}
      (hhs : RowHead hs fs) (hcolon : colon.IsSign ":") (harrow : arrow.IsSign "->")
      (hbs : BlockBody depth s bs gs) (hrows : SwitchRows depth s cs as facts) :
      SwitchRows depth s (hs ++ colon :: (bs ++ cs)) (hs ++ arrow :: (bs ++ as))
        (fs ++ (gs ++ facts))

/-! ## Tokens -/

/-- The signs that end a label. -/
def labelEnds : List String := [":", "->"]

/-- The signs that can follow a constant expression. -/
def labelFollowers : List String := [")", "]", "\x7d", ",", ":", "->"] ++ operatorSigns

/-- An operator is made of signs of operators. -/
theorem Operator.signs (h : Operator ops) :
    ∃ t us, ops = t :: us ∧ ∀ u ∈ ops, u.IsSignOf operatorSigns := by
  cases h with
  | sign ht => exact ⟨_, _, rfl, by simpa using ht⟩
  | shift ht hu =>
    exact ⟨_, _, rfl, by simpa using ⟨ht.isSignOf (by decide), hu.isSignOf (by decide)⟩⟩
  | unsignedShift ht hu hv =>
    exact ⟨_, _, rfl, by
      simpa using ⟨ht.isSignOf (by decide), hu.isSignOf (by decide), hv.isSignOf (by decide)⟩⟩

/-- An operator starts with a sign of operators. -/
theorem Operator.follows (h : Operator ops) (rest : List Token) :
    Follows operatorSigns (ops ++ rest) := by
  obtain ⟨t, us, rfl, hsigns⟩ := h.signs
  exact ⟨t, us ++ rest, rfl, hsigns t (by simp)⟩

/-- An operator has no brackets. -/
theorem Operator.bracketed (h : Operator ops) : Bracketed ops := by
  have hplain : ∀ sign ∈ operatorSigns, bracketPairs.lookup sign = none ∧ sign ∉ closers := by
    decide
  obtain ⟨-, -, -, hsigns⟩ := h.signs
  clear h
  induction ops with
  | nil => exact .nil
  | cons t ops ih =>
    have ht := hsigns t (by simp)
    obtain ⟨hopener, hcloser⟩ := hplain _ ht.2
    exact .token (ht.isSign.isPlain hopener hcloser) (ih fun u hu => hsigns u (by simp [hu]))

/-- A constant expression has its brackets balanced. -/
theorem ConstantExpression.bracketed (h : ConstantExpression closed es facts) : Bracketed es := by
  induction h with
  | literal ht => exact .token (Token.isPlain_of_isLiteral ht) .nil
  | constant ht => exact .token ht.isPlain .nil
  | chain ht hts => exact .token ht.isPlain hts.grouped.bracketed
  | binary _ hops _ ihds ihes => exact ihds.append (hops.bracketed.append ihes)
  | parenthesized hl _ hr ih => exact .group (hl.opens rfl) ih (hr.closes (by decide)) .nil

/-- A constant expression is made of tokens of the grammar. -/
theorem ConstantExpression.lexical (h : ConstantExpression closed es facts) : Lexical es := by
  induction h with
  | literal ht => exact .cons (Token.isLexical_of_isLiteral ht) .nil
  | constant ht hword =>
    have hsign : ∀ word ∈ ["true", "false", "null"], word ∉ signs := by decide
    exact .cons (fun _ => ht.2 ▸ hsign _ hword) .nil
  | chain ht hts => exact .cons ht.isLexical hts.lexical
  | binary _ hops _ ihds ihes =>
    obtain ⟨-, -, -, hsigns⟩ := hops.signs
    exact ihds.append (Lexical.append (fun u hu => (hsigns u hu).isSign.isLexical) ihes)
  | parenthesized hl _ hr ih => exact .cons hl.isLexical (ih.append (.cons hr.isLexical .nil))

/-- A constant expression starts with no primitive type. -/
theorem ConstantExpression.not_primitive (h : ConstantExpression closed es facts) :
    startsWith (fun t => !t.isPrimitive) es := by
  induction h with
  | literal ht => simpa using Token.isPrimitive_of_isLiteral ht
  | constant ht hword => simpa [ht.isPrimitive] using (constant_words _ hword).2.1.2
  | chain ht => simpa using ht.isPrimitive
  | binary _ _ _ ih => exact startsWith_append ih _
  | parenthesized hl => simpa using hl.isPrimitive

/-- The facts of a chain are accesses. -/
theorem chainAccesses_accesses (line : Nat) (before names : List String) :
    ∀ f ∈ chainAccesses line before names, ∃ a, f = .access a := by
  induction names generalizing before with
  | nil => simp [chainAccesses]
  | cons name names ih => simpa [chainAccesses, fieldAccess] using ih _

/-- A constant expression has no facts but accesses. -/
theorem ConstantExpression.accesses (h : ConstantExpression closed es facts) :
    ∀ f ∈ facts, ∃ a, f = .access a := by
  induction h with
  | literal => simp
  | constant => simp
  | chain => exact chainAccesses_accesses _ _ _
  | binary _ _ _ ihds ihes => exact fun f hf => (List.mem_append.1 hf).elim (ihds f) (ihes f)
  | parenthesized _ _ _ ih => exact ih

/-- The facts of labels are accesses. -/
theorem CaseLabels.accesses (h : CaseLabels closed ls facts) : ∀ f ∈ facts, ∃ a, f = .access a := by
  induction h with
  | one hes => exact hes.accesses
  | more hes _ _ ih => exact fun f hf => (List.mem_append.1 hf).elim (hes.accesses f) (ih f)

/-! ## Reading labels -/

/-- No sign behind a label starts an operand, except the arrow. -/
theorem labelFollowers_no_operand : ∀ sign ∈ labelFollowers, sign ≠ "->" →
    sign ∉ ["(", "!", "~", "->"] := by decide

/-- What follows a constant expression starts no operand of a cast. -/
theorem Follows.not_operand (h : Follows labelFollowers rest) (harrow : begins "->" rest = false) :
    startsWith (startsCastOperand false) rest = false := by
  obtain ⟨u, us, rfl, hu⟩ := h
  have hne : u.text ≠ "->" := fun heq => by
    have hsign : u.IsSign "->" := ⟨hu.1, heq⟩
    simp [hsign.spells] at harrow
  exact (FollowsValue.operator hu.isSign (labelFollowers_no_operand _ hu.2 hne)).isNoOperand.1

namespace Parser

/-- A sign of operators passes. -/
theorem passes_operatorSign (ht : t.IsSignOf operatorSigns) (hstop : stop ⊆ labelEnds)
    (rest : List Token) : Passes nested stop s [t] [] rest := by
  have hplain : ∀ sign ∈ operatorSigns, sign ∉ partWords ∧ sign ∉ closers ∧ sign ∉ labelEnds := by
    decide
  obtain ⟨hpart, hclose, hend⟩ := hplain _ ht.2
  exact passes_sign ht.isSign hpart ⟨hclose, fun hmem => hend (hstop hmem)⟩ rest

/-- An operator passes. -/
theorem passes_operator (hops : Operator ops) (hstop : stop ⊆ labelEnds) (rest : List Token) :
    Passes nested stop s ops [] rest := by
  have hangle : ∀ {u : Token} {us : List Token}, u.IsSign ">" → Passes nested stop s [u] [] us :=
    fun hu => passes_operatorSign (hu.isSignOf (by decide)) hstop _
  cases hops with
  | sign ht => exact passes_operatorSign ht hstop rest
  | @shift t u ht hu =>
    exact (hangle ht : Passes nested stop s [t] [] ([u] ++ rest)).append (hangle hu)
  | @unsignedShift t u v ht hu hv =>
    have hmore : Passes nested stop s ([u] ++ [v]) [] rest :=
      (hangle hu : Passes nested stop s [u] [] ([v] ++ rest)).append (hangle hv)
    exact (hangle ht : Passes nested stop s [t] [] ([u] ++ [v] ++ rest)).append hmore

/-- What stands in parentheses before the arrow of a label is taken for parameters. -/
theorem passes_group_arrow (hl : l.IsSign "(") (hes : Bracketed es) (hr : r.IsSign ")")
    (harrow : arrow.IsSign "->") :
    Passes nested labelEnds s (l :: (es ++ [r]))
      ((lambdaParameters 0 [] es).flatMap (declaredValue .parameter s.owner)) (arrow :: rest) := by
  intro afterArrow
  have hends : Ends labelEnds arrow := ends_of_isSign harrow (by decide)
  have hread : fromParenthesis nested (es ++ r :: arrow :: rest) s
      (l :: (es ++ r :: arrow :: rest)) = _ := fromParenthesis_lambda hl hr hes harrow
  have hpart : expressionPart nested labelEnds afterArrow l (es ++ r :: arrow :: rest) s
      (l :: (es ++ r :: arrow :: rest)) = .ok ⟨afterArrow,
        (lambdaParameters 0 [] es).flatMap (declaredValue .parameter s.owner), arrow :: rest⟩ := by
    simp [expressionPart, bind_apply, hl.spells, hread]
  rw [List.cons_append, List.append_assoc, List.singleton_append,
    round_of_part (not_ends_of_isSign hl (by decide) (by decide)) hpart (by simp; omega),
    expression_done hends, expression_done hends]

end Parser

/-- A constant expression is passed over, and its accesses are recorded. A name may have an arrow
behind it that ends the expression; a parenthesis may not. -/
theorem ConstantExpression.passes (h : ConstantExpression closed es facts) (s : Scope)
    (hdepth : es.length ≤ depth) (hstop : stop ⊆ labelEnds) (hrest : Follows labelFollowers rest)
    (harrow : begins "->" rest → "->" ∈ stop ∧ closed = false) :
    Parser.Passes (construct depth) stop s es facts rest := by
  induction h generalizing depth stop rest with
  | literal ht => exact passes_literal ht rest
  | constant ht hword => exact passes_constant ht hword
  | chain ht hts =>
    exact passes_chain ht hts ⟨hrest.spells (by decide), hrest.spells (by decide)⟩
      fun hbegins => (harrow hbegins).1
  | @binary first closed ds ops es fs gs _ hops _ ihds ihes =>
    simp only [List.length_append] at hdepth
    have hfollows := hops.follows (es ++ rest)
    have hnone : begins "->" (ops ++ (es ++ rest)) = false := hfollows.spells (by decide)
    have hfirst : Parser.Passes (construct depth) stop s ds fs (ops ++ (es ++ rest)) :=
      ihds (by omega) hstop (hfollows.mono (by decide)) (by simp [hnone])
    have hsecond : Parser.Passes (construct depth) stop s es gs rest :=
      ihes (by omega) hstop hrest harrow
    rw [← List.append_assoc] at hfirst
    exact hfirst.append ((passes_operator hops hstop (es ++ rest)).append hsecond)
  | @parenthesized closed l r es facts hl hes hr ih =>
    simp only [List.length_cons, List.length_append, List.length_nil] at hdepth
    -- with an arrow behind it, the group would be the parameters of a lambda
    have hnone : begins "->" rest = false := by
      cases hbegins : begins "->" rest with
      | false => rfl
      | true => exact absurd (harrow hbegins).2 (by decide)
    have hinside : Inside (construct depth) s es facts := by
      refine inside_of_passes (by omega) fun d hd c more hc => ?_
      have hfollows : Follows closers (c :: more) := ⟨c, more, rfl, .of_isCloser hc⟩
      exact ih hd (by simp) (hfollows.mono (by decide))
        (by simp [hfollows.spells (by decide : "->" ∉ closers)])
    have hprimitive : startsWith (·.isPrimitive) es = false := by
      obtain ⟨u, us, rfl, hu⟩ := startsWith_eq_true hes.not_primitive
      simpa using hu
    refine passes_parenthesis (fun hmem => absurd (hstop hmem) (by decide)) hl ?_
    rw [List.append_assoc]
    exact fromParenthesis_group hl hr hes.bracketed hinside hnone
      (castRest?_group hes.bracketed hes.lexical hprimitive hr (hrest.not_operand hnone))

/-- Before an arrow that ends the expression, an expression in parentheses is taken for parameters:
what is between the last parentheses is declared instead of read. -/
theorem ConstantExpression.passes_closed (h : ConstantExpression closed es facts) (s : Scope)
    (hclosed : closed = true) (hdepth : es.length ≤ depth) (harrow : arrow.IsSign "->") :
    ∃ before l inside r kept, es = before ++ l :: (inside ++ [r]) ∧ l.IsSign "(" ∧ r.IsSign ")" ∧
      kept <+: facts ∧
      Parser.Passes (construct depth) labelEnds s es
        (kept ++ (lambdaParameters 0 [] inside).flatMap (declaredValue .parameter s.owner))
        (arrow :: rest) := by
  induction h with
  | literal => cases hclosed
  | constant => cases hclosed
  | chain => cases hclosed
  -- the last operand is the closed one, the others are read as before
  | @binary first closed ds ops es fs gs hds hops _ _ ih =>
    simp only [List.length_append] at hdepth
    obtain ⟨before, l, inside, r, kept, rfl, hl, hr, hkept, hread⟩ := ih hclosed (by omega)
    have hfollows := hops.follows (before ++ l :: (inside ++ [r]) ++ arrow :: rest)
    have hnone := hfollows.spells (by decide : "->" ∉ operatorSigns)
    have hfirst : Parser.Passes (construct depth) labelEnds s ds fs _ :=
      hds.passes s (by omega) (List.Subset.refl _) (hfollows.mono (by decide))
        fun hbegins => absurd (hnone.symm.trans hbegins) Bool.false_ne_true
    rw [← List.append_assoc] at hfirst
    refine ⟨ds ++ (ops ++ before), l, inside, r, fs ++ kept, by simp, hl, hr, ?_, ?_⟩
    · exact (List.prefix_append_right_inj fs).2 hkept
    · rw [List.append_assoc fs]
      exact hfirst.append ((passes_operator hops (List.Subset.refl _) _).append hread)
  | @parenthesized _ l r es facts hl hes hr _ =>
    exact ⟨[], l, es, r, [], rfl, hl, hr, List.nil_prefix,
      passes_group_arrow hl hes.bracketed hr harrow⟩

/-- Labels pass, with their accesses, unless an arrow follows a closed one. -/
theorem CaseLabels.passes (h : CaseLabels closed ls facts) (s : Scope) (hdepth : ls.length ≤ depth)
    (hrest : Follows labelEnds rest) (harrow : begins "->" rest → closed = false) :
    Parser.Passes (construct depth) labelEnds s ls facts rest := by
  induction h with
  | one hes =>
    exact hes.passes s hdepth (List.Subset.refl _) (hrest.mono (by decide))
      fun hbegins => ⟨by decide, harrow hbegins⟩
  | @more first closed comma es ls fs gs hes hcomma _ ih =>
    simp only [List.length_append, List.length_cons] at hdepth
    have hfirst : Parser.Passes (construct depth) labelEnds s es fs (comma :: ls ++ rest) :=
      hes.passes s (by omega) (List.Subset.refl _) ⟨comma, _, rfl, hcomma.isSignOf (by decide)⟩
        (by simp [hcomma.spells])
    have hskipped : Parser.Passes (construct depth) labelEnds s [comma] [] (ls ++ rest) :=
      passes_sign hcomma (by decide) (by decide) _
    exact hfirst.append (hskipped.append (ih (by omega) harrow))

/-- Closed labels before an arrow pass their last group as parameters of a lambda. -/
theorem CaseLabels.passes_closed (h : CaseLabels closed ls facts) (s : Scope)
    (hclosed : closed = true) (hdepth : ls.length ≤ depth) (harrow : arrow.IsSign "->") :
    ∃ before l inside r kept, ls = before ++ l :: (inside ++ [r]) ∧ l.IsSign "(" ∧ r.IsSign ")" ∧
      kept <+: facts ∧
      Parser.Passes (construct depth) labelEnds s ls
        (kept ++ (lambdaParameters 0 [] inside).flatMap (declaredValue .parameter s.owner))
        (arrow :: rest) := by
  induction h with
  | one hes => exact hes.passes_closed s hclosed hdepth harrow
  | @more first closed comma es ls fs gs hes hcomma _ ih =>
    simp only [List.length_append, List.length_cons] at hdepth
    obtain ⟨before, l, inside, r, kept, rfl, hl, hr, hkept, hread⟩ := ih hclosed (by omega)
    have hfirst : Parser.Passes (construct depth) labelEnds s es fs
        (comma :: (before ++ l :: (inside ++ [r])) ++ arrow :: rest) :=
      hes.passes s (by omega) (List.Subset.refl _) ⟨comma, _, rfl, hcomma.isSignOf (by decide)⟩
        (by simp [hcomma.spells])
    have hskipped : Parser.Passes (construct depth) labelEnds s [comma] []
        (before ++ l :: (inside ++ [r]) ++ arrow :: rest) :=
      passes_sign hcomma (by decide) (by decide) _
    refine ⟨es ++ comma :: before, l, inside, r, fs ++ kept, by simp, hl, hr, ?_, ?_⟩
    · exact (List.prefix_append_right_inj fs).2 hkept
    · rw [List.append_assoc fs]
      exact hfirst.append (hskipped.append hread)

/-! ## Reading rows -/

/-- A block that can be read on its own is read in the same way whatever follows, also where
constructs may nest deeper. -/
theorem BlockBody.apply (h : BlockBody depth s bs facts) (hdepth : depth ≤ depth')
    (rest : List Token) : block (construct depth') s (bs ++ rest) = .ok ⟨(), facts, rest⟩ := by
  cases h with
  | @mk l r inside _ hl hinside hlexical hr hread =>
    have hbracketed : Bracketed (l :: (inside ++ [r])) :=
      .group (hl.opens rfl) hinside (hr.closes (by decide)) .nil
    have hcomplete : Complete (l :: (inside ++ [r])) := by
      refine ⟨.cons hl.isLexical (hlexical.append (.cons hr.isLexical .nil)),
        ⟨l :: inside, r, rfl, .inr (by simp [hr.spells])⟩, [], ?_⟩
      simpa using hbracketed.unclosed [] []
    exact block_shared (z := []) hdepth hcomplete (by simpa using hread)

/-- A block starts with its brace. -/
theorem BlockBody.head (h : BlockBody depth s bs facts) :
    ∃ l us, bs = l :: us ∧ l.IsSign "\x7b" := by
  cases h with
  | mk hl => exact ⟨_, _, rfl, hl⟩

/-- A block starts with no closing brace, and is not empty. -/
theorem BlockBody.not_brace (h : BlockBody depth s bs facts) (rest : List Token) :
    begins "\x7d" (bs ++ rest) = false ∧ rest.length < (bs ++ rest).length := by
  obtain ⟨l, us, rfl, hl⟩ := h.head
  refine ⟨by simp [hl.spells], ?_⟩
  simp only [List.length_append, List.length_cons]
  omega

/-- The head of a row starts with no closing brace, and is not empty. -/
theorem RowHead.not_brace (h : RowHead hs facts) (rest : List Token) :
    begins "\x7d" (hs ++ rest) = false ∧ rest.length < (hs ++ rest).length := by
  cases h with
  | case ht =>
    refine ⟨by simp [ht.spells], ?_⟩
    simp only [List.length_append, List.length_cons]
    omega
  | default ht => exact ⟨by simp [ht.spells], by simp⟩

namespace Parser

/-- The mark behind a label ends it. -/
theorem ends_label (h : mark.IsSignOf labelEnds) : Ends labelEnds mark :=
  ends_of_isSign h.isSign (.inr h.2)

/-- A label or `default` is read up to the colon or arrow behind it. -/
theorem switchRound_head (h : RowHead hs facts) (hdepth : hs.length ≤ depth)
    (hmark : mark.IsSignOf labelEnds) (rest : List Token) :
    switchRound (construct (depth + 1)) s (hs ++ mark :: rest) =
      recording facts (caseRest (construct (depth + 1)) s (mark :: rest)) := by
  cases h with
  | @case t ls _ ht hls =>
    simp only [List.length_cons] at hdepth
    have hread : construct (depth + 1) (.expression [":", "->"]) s (ls ++ mark :: rest) = _ :=
      (hls.passes s (by omega) ⟨mark, rest, rfl, hmark⟩ fun _ => rfl).expression (ends_label hmark)
    simp [switchRound, bind_apply, ht.spells, hread]
  | default ht => simp [switchRound, bind_apply, ht.spells]

/-- Behind an arrow a block is read as the body of the row. -/
theorem caseRest_block (harrow : arrow.IsSign "->") (hbs : BlockBody depth s bs facts)
    (rest : List Token) :
    caseRest (construct (depth + 1)) s (arrow :: (bs ++ rest)) = .ok ⟨(), facts, rest⟩ := by
  have hread := hbs.apply (Nat.le_succ depth) rest
  obtain ⟨l, us, rfl, hl⟩ := hbs.head
  rw [List.cons_append] at hread
  simp [caseRest, bind_apply, harrow.spells, hl.spells, hread]

/-- The block behind a colon is a statement of its own. -/
theorem switchRound_block (hbs : BlockBody depth s bs facts) (rest : List Token) :
    switchRound (construct (depth + 1)) s (bs ++ rest) = .ok ⟨(), facts, rest⟩ := by
  have hread := hbs.apply (Nat.le_refl depth) rest
  obtain ⟨l, us, rfl, hl⟩ := hbs.head
  rw [List.cons_append] at hread ⊢
  rw [switchRound_statement (by simp [hl.spells]) (by simp [hl.spells])]
  exact statement_block hl hread

end Parser

/-- The rows of a switch record the same, written with colons and written with arrows. -/
theorem SwitchRows.read (h : SwitchRows depth s cs as facts) (hdepth : cs.length ≤ depth)
    (hr : r.IsSign "\x7d") (rest : List Token) :
    untilSees "\x7d" (switchRound (construct (depth + 1))) s (cs ++ r :: rest) =
        .ok ⟨(), facts, r :: rest⟩ ∧
      untilSees "\x7d" (switchRound (construct (depth + 1))) s (as ++ r :: rest) =
        .ok ⟨(), facts, r :: rest⟩ := by
  have hclose : begins "\x7d" (r :: rest) := by simp [hr.spells]
  -- on the rows; with colons a row is two rounds, its label and its block, with an arrow it is one
  induction h with
  | none => exact ⟨untilSees_done hclose, untilSees_done hclose⟩
  | @row colon arrow hs bs cs as fs gs facts hhs hcolon harrow hbs _ ih =>
    simp only [List.length_append, List.length_cons] at hdepth
    obtain ⟨hcolons, harrows⟩ := ih (by omega)
    constructor
    · have hlabel : switchRound (construct (depth + 1)) s
          (hs ++ colon :: (bs ++ (cs ++ r :: rest))) = .ok ⟨(), fs, bs ++ (cs ++ r :: rest)⟩ := by
        rw [switchRound_head hhs (by omega) (hcolon.isSignOf (by decide)), caseRest_colon hcolon]
        simp
      have hlt := (hhs.not_brace (colon :: (bs ++ (cs ++ r :: rest)))).2
      rw [List.append_assoc, List.cons_append, List.append_assoc,
        untilSees_again (hhs.not_brace _).1 hlabel (by simp only [List.length_cons] at hlt; omega),
        untilSees_again (hbs.not_brace _).1 (switchRound_block hbs _) (hbs.not_brace _).2, hcolons]
      rfl
    · have hrow : switchRound (construct (depth + 1)) s
          (hs ++ arrow :: (bs ++ (as ++ r :: rest))) = .ok ⟨(), fs ++ gs, as ++ r :: rest⟩ := by
        rw [switchRound_head hhs (by omega) (harrow.isSignOf (by decide)),
          caseRest_block harrow hbs]
        simp
      have hlt := (hhs.not_brace (arrow :: (bs ++ (as ++ r :: rest)))).2
      have hlt' := (hbs.not_brace (as ++ r :: rest)).2
      rw [List.append_assoc, List.cons_append, List.append_assoc,
        untilSees_again (hhs.not_brace _).1 hrow (by simp only [List.length_cons] at hlt; omega),
        harrows]
      simp

/-- Labels are read up to the colon or arrow that ends them, and record their accesses only. The one
exception is a closed label before an arrow: it is read up to the arrow too, but what is between its
last parentheses is declared instead of read. So a switch whose labels are not closed records the
same with arrows as with colons. -/
theorem case_labels (depth : Nat) (s : Scope) :
    (∀ closed ls facts, CaseLabels closed ls facts → ls.length ≤ depth →
      (∀ mark rest, mark.IsSign ":" ∨ (mark.IsSign "->" ∧ closed = false) →
        expression (construct depth) [":", "->"] s (ls ++ mark :: rest) =
          .ok ⟨(), facts, mark :: rest⟩) ∧
      (∀ f ∈ facts, ∃ a, f = .access a) ∧
      (closed = true → ∀ arrow rest, arrow.IsSign "->" →
        ∃ before l inside r kept, ls = before ++ l :: (inside ++ [r]) ∧ l.IsSign "(" ∧
          r.IsSign ")" ∧ kept <+: facts ∧
          expression (construct depth) [":", "->"] s (ls ++ arrow :: rest) =
            .ok ⟨(), kept ++ (lambdaParameters 0 [] inside).flatMap (declaredValue .parameter s.owner),
              arrow :: rest⟩)) ∧
    ∀ colons arrows facts l r rest, SwitchRows depth s colons arrows facts →
      colons.length ≤ depth → l.IsSign "\x7b" → r.IsSign "\x7d" →
        switchBlock (construct (depth + 1)) s (l :: (colons ++ r :: rest)) = .ok ⟨(), facts, rest⟩ ∧
        switchBlock (construct (depth + 1)) s (l :: (arrows ++ r :: rest)) = .ok ⟨(), facts, rest⟩ := by
  refine ⟨fun closed ls facts hls hdepth => ⟨fun mark rest hmark => ?_, hls.accesses,
    fun hclosed arrow rest harrow => ?_⟩, fun colons arrows facts l r rest hrows hdepth hl hr => ?_⟩
  · have hends : mark.IsSignOf labelEnds := by
      rcases hmark with hcolon | ⟨harrow, -⟩
      · exact hcolon.isSignOf (by decide)
      · exact harrow.isSignOf (by decide)
    have hopen : begins "->" (mark :: rest) → closed = false := fun hbegins => by
      rcases hmark with hcolon | ⟨-, hopen⟩
      · simp [hcolon.spells] at hbegins
      · exact hopen
    exact (hls.passes s hdepth ⟨mark, rest, rfl, hends⟩ hopen).expression (ends_label hends)
  · obtain ⟨before, l, inside, r, kept, hsplit, hl, hr, hkept, hread⟩ :=
      hls.passes_closed s hclosed hdepth harrow
    exact ⟨before, l, inside, r, kept, hsplit, hl, hr, hkept,
      hread.expression (ends_label (harrow.isSignOf (by decide)))⟩
  -- a block is its rows between braces, in either spelling
  · obtain ⟨hcolons, harrows⟩ := hrows.read hdepth hr rest
    constructor
    · simp [switchBlock_eq, bind_apply, expect_cons, hl.spells, hr.spells, hcolons]
    · simp [switchBlock_eq, bind_apply, expect_cons, hl.spells, hr.spells, harrows]

/-- The rows `case A.B, 1 + 2` and `default`, with empty blocks, record one access. -/
theorem case_labels_rows :
    let s : Scope := ⟨none, 1⟩
    let label : List Token := [.word "A" 1, .sign "." 1, .word "B" 1, .sign "," 1,
      ⟨.number, "1", 1, 1⟩, .sign "+" 1, ⟨.number, "2", 1, 1⟩]
    let rows : Token → List Token := fun mark => .word "case" 1 :: label ++
      mark :: ([.sign "\x7b" 1, .sign "\x7d" 1] ++ ([.word "default" 1] ++
        mark :: ([.sign "\x7b" 1, .sign "\x7d" 1] ++ [])))
    switchBlock (construct 17) s (.sign "\x7b" 1 :: (rows (.sign ":" 1) ++ [.sign "\x7d" 1])) =
        .ok ⟨(), [fieldAccess "B" "A" .name 1], []⟩ ∧
      switchBlock (construct 17) s (.sign "\x7b" 1 :: (rows (.sign "->" 1) ++ [.sign "\x7d" 1])) =
        .ok ⟨(), [fieldAccess "B" "A" .name 1], []⟩ := by
  intro s label rows
  have hchain : ConstantExpression false [.word "A" 1, .sign "." 1, .word "B" 1]
      [fieldAccess "B" "A" .name 1] := .chain (by decide) (.cons ⟨rfl, rfl⟩ (by decide) .nil)
  have hsum : ConstantExpression false
      [⟨.number, "1", 1, 1⟩, .sign "+" 1, ⟨.number, "2", 1, 1⟩] [] :=
    .binary (.literal rfl) (.sign ⟨rfl, by decide⟩) (.literal rfl)
  have hlabel : CaseLabels false label [fieldAccess "B" "A" .name 1] :=
    .more hchain ⟨rfl, rfl⟩ (.one hsum)
  have hl : (Token.sign "\x7b" 1).IsSign "\x7b" := ⟨rfl, rfl⟩
  have hr : (Token.sign "\x7d" 1).IsSign "\x7d" := ⟨rfl, rfl⟩
  have hblock : BlockBody 16 s [.sign "\x7b" 1, .sign "\x7d" 1] [] :=
    .mk hl .nil (by decide) hr (block_apply hl hr (untilSees_done (by decide)))
  have hrows : SwitchRows 16 s (rows (.sign ":" 1)) (rows (.sign "->" 1))
      [fieldAccess "B" "A" .name 1] :=
    .row (.case ⟨rfl, rfl⟩ hlabel) ⟨rfl, rfl⟩ ⟨rfl, rfl⟩ hblock
      (.row (.default ⟨rfl, rfl⟩) ⟨rfl, rfl⟩ ⟨rfl, rfl⟩ hblock .none)
  exact (case_labels 16 s).2 _ _ _ _ _ [] hrows (by decide) hl hr

/-- Not every label declares nothing: `case (B) ->` declares a parameter `B`. -/
theorem closed_label_declared :
    ¬ ∀ (depth : Nat) (s : Scope) (closed : Bool) (ls rest : List Token) (facts : List Fact)
      (mark : Token), CaseLabels closed ls facts → ls.length ≤ depth → mark.IsSignOf [":", "->"] →
        expression (construct depth) [":", "->"] s (ls ++ mark :: rest) =
          .ok ⟨(), facts, mark :: rest⟩ := by
  intro h
  have hname : ConstantExpression false [.word "B" 1] [] := .chain (by decide) .nil
  have hlabel : CaseLabels true [.sign "(" 1, .word "B" 1, .sign ")" 1] [] :=
    .one (.parenthesized ⟨rfl, rfl⟩ hname ⟨rfl, rfl⟩)
  have hread := h 3 ⟨none, 1⟩ true _ [] [] (.sign "->" 1) hlabel (by decide) ⟨rfl, by decide⟩
  have hdeclared : Parser.Passes (construct 3) labelEnds ⟨none, 1⟩
      (.sign "(" 1 :: ([.word "B" 1] ++ [.sign ")" 1])) _ (.sign "->" 1 :: []) :=
    passes_group_arrow ⟨rfl, rfl⟩ hname.bracketed ⟨rfl, rfl⟩ ⟨rfl, rfl⟩
  cases (hdeclared.expression (by decide)).symm.trans hread

end Assay.Source
