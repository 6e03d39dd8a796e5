import Assay.Proofs.ExpressionForms
import Assay.Proofs.LexicalTokens

/-!
# Casts told apart from parentheses

An opening parenthesis starts a cast if a type stands behind it, the type ends where the parenthesis
is closed, and the next token can start an operand. No more than this one token is looked at. It
tells operands from what can follow an expression in parentheses (`castRest?_group`), except that a
class literal such as `int.class` starts with a word that is not expected there: before it the type
of a cast is read as an expression (`casts_told_apart`).
-/

namespace Assay.Source

open Assay.Source.Parser

variable {nested : Construct → Parser Unit} {stop : List String} {s : Scope} {depth : Nat}
  {t u l r c : Token} {ts us es pre rest mid : List Token} {names due due' : List String}
  {closer : String}

/-! ## Operands -/

/-- The words that can start an operand, identifiers apart. -/
def operandWords : List String := ["this", "super", "new", "switch", "true", "false", "null"]

/-- The token starts an operand that a cast may have, to a primitive type or not. Class literals of
primitive types are left out. -/
inductive StartsOperand (primitive : Bool) (t : Token) : Prop
  /-- A name, the parameter of a lambda expression or the class literal of a named type. -/
  | name (ht : t.IsIdentifier)
  | literal (ht : t.isLiteral)
  | word {word : String} (ht : t.IsWord word) (hword : word ∈ operandWords)
  /-- An operand in parentheses, the parameters of a lambda expression or another cast. -/
  | parenthesis (ht : t.IsSign "(")
  | negated {sign : String} (ht : t.IsSign sign) (hsign : sign = "!" ∨ sign = "~")
  | signed {sign : String} (hprimitive : primitive) (ht : t.IsSign sign)
      (hsign : sign ∈ ["+", "-", "++", "--"])

/-- The token can follow a value: an operator, if it is none that stands before operands only, or
`instanceof`. -/
inductive FollowsValue (t : Token) : Prop
  | operator {sign : String} (ht : t.IsSign sign) (hsign : sign ∉ ["(", "!", "~", "->"])
  | test (ht : t.IsWord "instanceof")

/-- The token starts no operand of a cast to a type that is not primitive, and is no arrow. -/
def Token.IsNoOperand (t : Token) : Prop :=
  startsCastOperand false t = false ∧ t.spells "->" = false

/-- A reserved word that starts no operand. -/
theorem Token.IsNoOperand.of_word {word : String} (h : t.IsWord word) (hkeyword : word ∈ keywords)
    (hword : word ∉ castOperandKeywords) (harrow : word ≠ "->") : t.IsNoOperand := by
  refine ⟨?_, by simp [h.spells, harrow]⟩
  simp [startsCastOperand, h.isLiteral, h.isIdentifier, h.isName, hkeyword, h.2, hword]

/-- A primitive type is no operand. -/
theorem Token.IsNoOperand.of_primitive (h : t.isPrimitive) : t.IsNoOperand := by
  have hsub : ∀ word ∈ primitiveTypes,
      word ∈ keywords ∧ word ∉ castOperandKeywords ∧ word ≠ "->" := by decide
  rw [Token.isPrimitive, Bool.and_eq_true] at h
  obtain ⟨hkeyword, hword, harrow⟩ := hsub t.text (by simpa using h.2)
  exact .of_word ⟨by simpa [Token.isIdentifier] using h.1, rfl⟩ hkeyword hword harrow

/-- What follows a value is no operand. -/
theorem FollowsValue.isNoOperand (h : FollowsValue t) : t.IsNoOperand := by
  cases h with
  | @operator sign ht hsign =>
    simp only [List.mem_cons, List.not_mem_nil, or_false, not_or] at hsign
    refine ⟨?_, by simp [ht.spells, hsign]⟩
    simp [startsCastOperand, ht.isLiteral, ht.isIdentifier, ht.2, castOperandOperators, hsign]
  | test ht => exact .of_word ht (by decide) (by decide) (by decide)

/-- What starts an operand is taken as one by the look over a cast. -/
theorem StartsOperand.startsCastOperand {primitive : Bool} (h : StartsOperand primitive t) :
    startsCastOperand primitive t = true := by
  cases h with
  | name ht => simp [Source.startsCastOperand, ht.isIdentifier, ht.isName]
  | literal ht => simp [Source.startsCastOperand, ht]
  | @word word ht hword =>
    have hsub : ∀ word ∈ operandWords, word ∈ castOperandKeywords := by decide
    simp [Source.startsCastOperand, ht.isIdentifier, ht.2, hsub _ hword]
  | parenthesis ht =>
    simp [Source.startsCastOperand, ht.isLiteral, ht.isIdentifier, ht.2, castOperandOperators]
  | negated ht hnegated =>
    rcases hnegated with rfl | rfl <;>
      simp [Source.startsCastOperand, ht.isLiteral, ht.isIdentifier, ht.2, castOperandOperators]
  | signed hprimitive ht hsigned =>
    have hsub : ∀ sign ∈ ["+", "-", "++", "--"], sign ∈ primitiveCastOperators := by decide
    simp [Source.startsCastOperand, ht.isLiteral, ht.isIdentifier, ht.2, hprimitive,
      hsub _ hsigned]

/-- What starts an operand is no arrow. -/
theorem StartsOperand.not_arrow {primitive : Bool} (h : StartsOperand primitive t) :
    t.spells "->" = false := by
  cases h with
  | name ht => simp [ht.spells_signs]
  | literal ht => exact Token.spells_of_isLiteral ht _
  | @word word ht hword =>
    have hne : ∀ word ∈ operandWords, word ≠ "->" := by decide
    simp [ht.spells, hne _ hword]
  | parenthesis ht => simp [ht.spells]
  | negated ht hnegated => rcases hnegated with rfl | rfl <;> simp [ht.spells]
  | @signed sign _ ht hsigned =>
    have hne : ∀ sign ∈ ["+", "-", "++", "--"], sign ≠ "->" := by decide
    simp [ht.spells, hne _ hsigned]

/-! ## Types hold no parentheses -/

/-- The token is a parenthesis. -/
def Token.IsRound (t : Token) : Prop := t.IsSign "(" ∨ t.IsSign ")"

/-- A token spelled otherwise is no parenthesis. -/
theorem Token.not_isRound_of_spells {word : String} (h : t.spells word)
    (hword : word ≠ "(" ∧ word ≠ ")") : ¬ t.IsRound := by
  rw [Token.spells, Bool.and_eq_true, beq_iff_eq] at h
  rintro (hround | hround)
  · exact hword.1 (h.2.symm.trans hround.2)
  · exact hword.2 (h.2.symm.trans hround.2)

/-- An identifier is no parenthesis. -/
theorem Token.not_isRound_of_isIdentifier (h : t.isIdentifier) : ¬ t.IsRound := by
  rintro (hround | hround) <;> simp [hround.isIdentifier] at h

/-- A name is no parenthesis. -/
theorem Token.not_isRound_of_isName (h : t.isName) : ¬ t.IsRound :=
  Token.not_isRound_of_isIdentifier (Bool.and_eq_true_iff.1 h).1

/-- A primitive type is no parenthesis. -/
theorem Token.not_isRound_of_isPrimitive (h : t.isPrimitive) : ¬ t.IsRound :=
  Token.not_isRound_of_isIdentifier (Bool.and_eq_true_iff.1 h).1

/-- The tokens left are behind others that are no parentheses. -/
def PastNoRound (ts rest : List Token) : Prop := ∃ pre, ts = pre ++ rest ∧ ∀ t ∈ pre, ¬ t.IsRound

/-- Standing still passes no parenthesis. -/
theorem PastNoRound.refl (ts : List Token) : PastNoRound ts ts := ⟨[], rfl, by simp⟩

/-- A token that is no parenthesis may be passed first. -/
theorem PastNoRound.cons (ht : ¬ t.IsRound) (h : PastNoRound ts rest) :
    PastNoRound (t :: ts) rest := by
  obtain ⟨pre, rfl, hpre⟩ := h
  exact ⟨t :: pre, rfl, by simpa using ⟨ht, hpre⟩⟩

/-- Two stretches without a parenthesis make one. -/
theorem PastNoRound.trans (h : PastNoRound ts mid) (hmid : PastNoRound mid rest) :
    PastNoRound ts rest := by
  obtain ⟨pre, rfl, hpre⟩ := h
  obtain ⟨more, rfl, hmore⟩ := hmid
  refine ⟨pre ++ more, by simp, fun t ht => ?_⟩
  exact (List.mem_append.1 ht).elim (hpre t) (hmore t)

/-- Type arguments pass no parenthesis. -/
theorem typeArgumentsRest?_pastNoRound {depth : Nat} (h : typeArgumentsRest? depth ts = some rest) :
    PastNoRound ts rest := by
  have hsigns : "(" ∉ typeArgumentOperators ∧ ")" ∉ typeArgumentOperators := by decide
  fun_induction typeArgumentsRest? depth ts with
  | case1 => cases h
  | case2 depth t ts hless ih => exact (ih h).cons (Token.not_isRound_of_spells hless (by decide))
  | case3 depth t ts _ hgreater =>
    cases h
    exact .cons (Token.not_isRound_of_spells hgreater (by decide)) (.refl _)
  | case4 depth t ts _ hgreater _ ih =>
    exact (ih h).cons (Token.not_isRound_of_spells hgreater (by decide))
  | case5 depth t ts _ _ hinside ih =>
    refine (ih h).cons ?_
    rcases Bool.or_eq_true_iff.1 hinside with ht | ht
    · exact Token.not_isRound_of_isIdentifier ht
    · rw [Token.spellsAny, Bool.and_eq_true, List.contains_iff_mem] at ht
      rintro (hround | hround)
      · exact hsigns.1 (hround.2 ▸ ht.2)
      · exact hsigns.2 (hround.2 ▸ ht.2)
  | case6 => cases h

/-- Type arguments that may be missing pass no parenthesis. -/
theorem optionalTypeArgumentsRest?_pastNoRound (h : optionalTypeArgumentsRest? ts = some rest) :
    PastNoRound ts rest := by
  rw [optionalTypeArgumentsRest?] at h
  split at h
  · exact typeArgumentsRest?_pastNoRound h
  · cases h
    exact .refl _

/-- The segments of a type pass no parenthesis. -/
theorem segmentsRest?_pastNoRound (h : segmentsRest? ts = some rest) : PastNoRound ts rest := by
  fun_induction segmentsRest? ts with
  | case1 => cases h
  | case2 ts dot segment tail hopt hname ih =>
    obtain ⟨hdot, hsegment⟩ := Bool.and_eq_true_iff.1 hname
    refine (optionalTypeArgumentsRest?_pastNoRound hopt).trans ?_
    exact ((ih h).cons (Token.not_isRound_of_isName hsegment)).cons
      (Token.not_isRound_of_spells hdot (by decide))
  | case3 ts dot segment tail hopt _ =>
    cases h
    exact optionalTypeArgumentsRest?_pastNoRound hopt
  | case4 ts tail _ hopt =>
    cases h
    exact optionalTypeArgumentsRest?_pastNoRound hopt

/-- Dimensions pass no parenthesis. -/
theorem dimensionsRest_pastNoRound (ts : List Token) : PastNoRound ts (dimensionsRest ts) := by
  fun_induction dimensionsRest ts with
  | case1 opening closing rest hpair ih =>
    obtain ⟨hopening, hclosing⟩ := Bool.and_eq_true_iff.1 hpair
    exact (ih.cons (Token.not_isRound_of_spells hclosing (by decide))).cons
      (Token.not_isRound_of_spells hopening (by decide))
  | case2 => exact .refl _
  | case3 => exact .refl _

/-- A type passes no parenthesis. -/
theorem typeRest?_pastNoRound (h : typeRest? ts = some rest) : PastNoRound ts rest := by
  cases ts with
  | nil => cases h
  | cons t ts =>
    rw [typeRest?] at h
    split at h
    · next hprimitive =>
      cases h
      exact (dimensionsRest_pastNoRound ts).cons (Token.not_isRound_of_isPrimitive hprimitive)
    · split at h
      · next hname =>
        obtain ⟨mid, hmid, rfl⟩ := Option.map_eq_some_iff.1 h
        exact ((segmentsRest?_pastNoRound hmid).trans (dimensionsRest_pastNoRound mid)).cons
          (Token.not_isRound_of_isName hname)
      · cases h

/-- The bounds of a cast pass no parenthesis. -/
theorem boundsRest?_pastNoRound (h : boundsRest? ts = some rest) : PastNoRound ts rest := by
  fun_induction boundsRest? ts with
  | case1 => cases h
  | case2 ts htype =>
    cases h
    exact typeRest?_pastNoRound htype
  | case3 ts t tail htype hand ih =>
    exact (typeRest?_pastNoRound htype).trans
      ((ih h).cons (Token.not_isRound_of_spells hand (by decide)))
  | case4 ts t tail htype _ =>
    cases h
    exact typeRest?_pastNoRound htype

/-! ## Groups that are no casts -/

/-- A closer that becomes due is that of an opening bracket. -/
theorem mem_unclosed (h : unclosed due ts = some due') (hcloser : closer ∈ due') :
    closer ∈ due ∨ ∃ t ∈ ts, t.closer? = some closer := by
  induction ts generalizing due with
  | nil =>
    cases h
    exact .inl hcloser
  | cons t ts ih =>
    have hlater : (∃ u ∈ ts, u.closer? = some closer) → ∃ u ∈ t :: ts, u.closer? = some closer :=
      fun ⟨u, hu, hopens⟩ => ⟨u, List.mem_cons_of_mem t hu, hopens⟩
    rcases unclosed_cons_eq_some h with ⟨opened, hopener, hrest⟩ | ⟨closed, outer, -, rfl, hrest⟩ |
      ⟨-, hrest⟩
    · rcases ih hrest with hmem | hopens
      · rcases List.mem_cons.1 hmem with rfl | hmem
        · exact .inr ⟨t, List.mem_cons_self, hopener⟩
        · exact .inl hmem
      · exact .inr (hlater hopens)
    · exact (ih hrest).imp (List.mem_cons_of_mem closed) hlater
    · exact (ih hrest).imp_right hlater

/-- Before a closing parenthesis among tokens whose brackets match stands an opening one. -/
theorem Bracketed.opens_before (h : Bracketed (pre ++ c :: us)) (hc : c.IsSign ")") :
    ∃ t ∈ pre, t.IsSign "(" := by
  have hclosed := h.unclosed [] []
  rw [List.append_nil, unclosed_append] at hclosed
  obtain ⟨due, hpre, hrest⟩ := Option.bind_eq_some_iff.1 hclosed
  have hcloses : c.Closes ")" := hc.closes (by decide)
  have hdue : ")" ∈ due := by
    rcases unclosed_cons_eq_some hrest with ⟨_, hopens, -⟩ | ⟨closer, outer, hcloser, rfl, -⟩ |
      ⟨hplain, -⟩
    · rw [closer?_eq_none hcloses.1] at hopens
      cases hopens
    · simp [← hcloser.2, hc.2]
    · have hcloser := hcloses.1
      rw [hplain.2] at hcloser
      cases hcloser
  obtain hnil | ⟨t, ht, hopens⟩ := mem_unclosed hpre hdue
  · cases hnil
  · refine ⟨t, ht, ?_⟩
    rw [Token.closer?] at hopens
    split at hopens
    · next hoperator =>
      have hpairs : ∀ pair ∈ bracketPairs, pair.2 = ")" → pair.1 = "(" := by decide
      refine ⟨by simpa [Token.isOperator] using hoperator, ?_⟩
      obtain ⟨before, after, hsplit, -⟩ := List.lookup_eq_some_iff.1 hopens
      exact hpairs (t.text, ")") (by simp [hsplit]) rfl
    · cases hopens

/-- Whatever stands in parentheses, it is not the type of a cast if the token behind them starts no
operand. -/
theorem castRest?_group (hes : Bracketed es) (hlexical : Lexical es)
    (hprimitive : startsWith (·.isPrimitive) es = false) (hr : r.IsSign ")")
    (hrest : startsWith (startsCastOperand false) rest = false) :
    castRest? (es ++ r :: rest) = none := by
  have hstart : startsWith (·.isPrimitive) (es ++ r :: rest) = false := by
    cases es with
    | nil => exact hr.isPrimitive
    | cons => exact hprimitive
  rw [castRest?, hstart]
  split
  · next closing operand more hbounds =>
    rw [if_neg]
    rw [Bool.and_eq_true]
    rintro ⟨hclosing, hoperand⟩
    obtain ⟨pre, hsplit, hpre⟩ := boundsRest?_pastNoRound hbounds
    -- the type ends before the parenthesis, at it or behind it
    rcases List.append_eq_append_iff.1 hsplit with ⟨bs, rfl, hbehind⟩ | ⟨as, rfl, hahead⟩
    · cases bs with
      | nil =>
        cases hbehind
        rw [startsWith_cons, hoperand] at hrest
        cases hrest
      | cons b bs =>
        obtain ⟨rfl, -⟩ := List.cons.inj hbehind
        exact hpre r (by simp) (.inr hr)
    · cases as with
      | nil =>
        cases hahead
        rw [startsWith_cons, hoperand] at hrest
        cases hrest
      | cons a as =>
        obtain ⟨rfl, -⟩ := List.cons.inj hahead
        have hsign := (hlexical closing (by simp)).isSign (by decide) hclosing
        obtain ⟨t, ht, hopens⟩ := hes.opens_before hsign
        exact hpre t ht (.inl hopens)
  · rfl

/-! ## Reading -/

/-- The segments of a name are tokens of the grammar. -/
theorem Segments.lexical (h : Segments ts names) : Lexical ts := by
  induction h with
  | nil => exact .nil
  | cons hdot ht _ ih => exact .cons hdot.isLexical (.cons ht.isLexical ih)

namespace Parser

/-- A chain of names is passed over, and its field accesses are recorded. -/
theorem passes_chain (ht : t.IsIdentifier) (hts : Segments ts names)
    (hrest : begins "." rest = false ∧ begins "(" rest = false)
    (harrow : begins "->" rest → "->" ∈ stop) :
    Passes nested stop s (t :: ts) (chainAccesses t.line [t.text] names) rest := by
  refine passes_nameChain_guarded ht (fun h => ?_) (nameChain_fields ht hts hrest.1 hrest.2)
  cases hbegins : begins "->" rest with
  | true => exact harrow hbegins
  | false =>
    rw [hts.begins (by decide) hbegins] at h
    cases h

/-- A chain of names in parentheses that no operand follows is passed over like the chain. -/
theorem passes_chain_group (hstop : "(" ∉ stop) (hl : l.IsSign "(") (ht : t.IsIdentifier)
    (hts : Segments ts names) (hr : r.IsSign ")") (hu : u.IsNoOperand) :
    Passes (construct (depth + 1)) stop s (l :: (t :: ts ++ [r]))
      (chainAccesses t.line [t.text] names) (u :: rest) := by
  have hbracketed : Bracketed (t :: ts) := (Grouped.identifier ht hts.grouped).bracketed
  have hlexical : Lexical (t :: ts) := .cons ht.isLexical hts.lexical
  have hinside : Inside (construct (depth + 1)) s (t :: ts)
      (chainAccesses t.line [t.text] names) := by
    intro c more hc
    have hends : Ends [] c := by simp [Ends, hc]
    have hfollows := follows_of_isCloser hc more
    exact (passes_chain ht hts ⟨hfollows.spells (by decide), hfollows.spells (by decide)⟩
      (by simp [hfollows.spells (by decide : "->" ∉ expressionFollowers)])).expression hends
  refine passes_parenthesis hstop hl ?_
  rw [List.append_assoc]
  exact fromParenthesis_group hl hr hbracketed hinside hu.2
    (castRest?_group hbracketed hlexical ht.isPrimitive hr hu.1)

/-- A chain of names in parentheses is a group where no operand follows, and its accesses are
recorded. -/
theorem expression_chain_group (hl : l.IsSign "(") (ht : t.IsIdentifier) (hts : Segments ts names)
    (hr : r.IsSign ")") (hu : u.IsNoOperand) :
    expression (construct (depth + 1)) [";"] s (l :: (t :: ts ++ r :: u :: rest)) =
      recording (chainAccesses t.line [t.text] names)
        (expression (construct (depth + 1)) [";"] s (u :: rest)) := by
  have hpasses : Passes (construct (depth + 1)) [";"] s (l :: (t :: ts ++ [r])) _ (u :: rest) :=
    passes_chain_group (by decide) hl ht hts hr hu
  rw [expression_eq]
  simpa using hpasses false

end Parser

/-! ## Casts and parentheses -/

/-- What a parenthesis starts is told by the token behind it. Before a token that starts an operand
the type of a cast is passed over, and the operand is read as if it stood alone; before one that can
follow a value a name in parentheses is read, with the accesses that it has without them. But before
the class literal of a primitive type, the type of a cast is read like such a name. -/
theorem casts_told_apart (depth : Nat) (s : Scope) (hl : l.IsSign "(") (hr : r.IsSign ")") :
    (∀ bs u us, Bounds bs → StartsOperand (startsWith (·.isPrimitive) bs) u →
      expression (construct depth) [";"] s (l :: (bs ++ r :: u :: us)) =
        expression (construct depth) [";"] s (u :: us)) ∧
    (∀ t ts names u us, t.IsIdentifier → Segments ts names → FollowsValue u →
      expression (construct (depth + 1)) [";"] s (l :: (t :: ts ++ r :: u :: us)) =
        recording (chainAccesses t.line [t.text] names)
          (expression (construct (depth + 1)) [";"] s (u :: us))) ∧
    (∀ t ts names semicolon us, t.IsIdentifier → Segments ts names → semicolon.IsSign ";" →
      expression (construct depth) [";"] s (t :: ts ++ semicolon :: us) =
        .ok ⟨(), chainAccesses t.line [t.text] names, semicolon :: us⟩) ∧
    ∀ t ts names u us, t.IsIdentifier → Segments ts names → u.isPrimitive →
      expression (construct (depth + 1)) [";"] s (l :: (t :: ts ++ r :: u :: us)) =
        recording (chainAccesses t.line [t.text] names)
          (expression (construct (depth + 1)) [";"] s (u :: us)) := by
  refine ⟨fun bs u us hbs hu => ?_, fun t ts names u us ht hts hu => ?_,
    fun t ts names semicolon us ht hts hsemicolon => ?_, fun t ts names u us ht hts hu => ?_⟩
  · have harrow : begins "->" (u :: us) = false := hu.not_arrow
    exact iterate_cast (by decide) hl hbs hr harrow hu.startsCastOperand false
  · exact expression_chain_group hl ht hts hr hu.isNoOperand
  · have hends : Ends [";"] semicolon := ends_of_isSign hsemicolon (by decide)
    have hpasses : Parser.Passes (construct depth) [";"] s (t :: ts) _ (semicolon :: us) :=
      passes_chain ht hts (by simp [hsemicolon.spells]) (by simp [hsemicolon.spells])
    exact hpasses.expression hends
  · exact expression_chain_group hl ht hts hr (.of_primitive hu)

/-- In `(java.util.List<A> & B) x.y;` and `(x.y).z;` the parentheses are told apart. -/
theorem casts_told_apart_types :
    let s : Scope := ⟨none, 1⟩
    let bounds : List Token := [.word "java" 1, .sign "." 1, .word "util" 1, .sign "." 1,
      .word "List" 1, .sign "<" 1, .word "A" 1, .sign ">" 1, .sign "&" 1, .word "B" 1]
    let chain : List Token := [.word "x" 1, .sign "." 1, .word "y" 1]
    expression (construct 1) [";"] s
          (.sign "(" 1 :: (bounds ++ .sign ")" 1 :: (chain ++ [.sign ";" 1]))) =
        .ok ⟨(), [fieldAccess "y" "x" .name 1], [.sign ";" 1]⟩ ∧
      expression (construct 1) [";"] s
          (.sign "(" 1 :: (chain ++ .sign ")" 1 :: [.sign "." 1, .word "z" 1, .sign ";" 1])) =
        recording [fieldAccess "y" "x" .name 1]
          (expression (construct 1) [";"] s [.sign "." 1, .word "z" 1, .sign ";" 1]) := by
  intro s bounds chain
  have hl : (Token.sign "(" 1).IsSign "(" := ⟨rfl, rfl⟩
  have hr : (Token.sign ")" 1).IsSign ")" := ⟨rfl, rfl⟩
  have hx : (Token.word "x" 1).IsIdentifier := by decide
  have hy : Segments [.sign "." 1, .word "y" 1] ["y"] := .cons ⟨rfl, rfl⟩ (by decide) .nil
  have hbounds : Bounds bounds := by
    have hlist : TypeForm .list [.sign "<" 1, .word "A" 1, .sign ">" 1] :=
      .list ⟨rfl, rfl⟩ (.one (.argument (.named (by decide) (.last .none)))) ⟨rfl, rfl⟩
    have htail : TypeForm .tail [.sign "." 1, .word "util" 1, .sign "." 1, .word "List" 1,
        .sign "<" 1, .word "A" 1, .sign ">" 1] :=
      .more .none ⟨rfl, rfl⟩ (by decide) (.more .none ⟨rfl, rfl⟩ (by decide) (.last hlist))
    exact .more (.named (t := .word "java" 1) (by decide) htail) ⟨rfl, rfl⟩
      (.one (.named (by decide) (.last .none)))
  obtain ⟨hcast, -, hchain, -⟩ := casts_told_apart 1 s hl hr
  obtain ⟨-, hgroup, -, -⟩ := casts_told_apart 0 s hl hr
  -- the dot behind the second pair of parentheses is no operand, so they are a group
  refine ⟨?_, hgroup _ _ _ _ _ hx hy (.operator ⟨rfl, rfl⟩ (by decide))⟩
  exact (hcast bounds (.word "x" 1) _ hbounds (.name hx)).trans
    (hchain (.word "x" 1) _ _ (.sign ";" 1) [] hx hy ⟨rfl, rfl⟩)

/-- Not every operand is told: the type of the cast in `(java.lang.Object) int.class;` is read as
two accesses. -/
theorem primitive_class_literal_missed :
    ¬ ∀ (depth : Nat) (s : Scope) (l r p dot c semicolon : Token) (bs rest : List Token),
      l.IsSign "(" → Bounds bs → r.IsSign ")" → p.IsValueType → dot.IsSign "." → c.IsWord "class" →
      semicolon.IsSign ";" →
        expression (construct depth) [";"] s
            (l :: (bs ++ r :: p :: dot :: c :: semicolon :: rest)) =
          expression (construct depth) [";"] s (p :: dot :: c :: semicolon :: rest) := by
  intro h
  let s : Scope := ⟨none, 1⟩
  let ts : List Token := [.sign "." 1, .word "lang" 1, .sign "." 1, .word "Object" 1]
  let behind : List Token := [.sign "." 1, .word "class" 1, .sign ";" 1]
  have hjava : (Token.word "java" 1).IsIdentifier := by decide
  have hts : Segments ts ["lang", "Object"] :=
    .cons ⟨rfl, rfl⟩ (by decide) (.cons ⟨rfl, rfl⟩ (by decide) .nil)
  have hbounds : Bounds (.word "java" 1 :: ts) :=
    .one (.named hjava (.more .none ⟨rfl, rfl⟩ (by decide)
      (.more .none ⟨rfl, rfl⟩ (by decide) (.last .none))))
  -- what the cast would have to leave, and what the parser reads instead
  have hsame : expression (construct 1) [";"] s (.sign "(" 1 :: (.word "java" 1 :: ts ++
      .sign ")" 1 :: .word "int" 1 :: behind)) =
        expression (construct 1) [";"] s (.word "int" 1 :: behind) :=
    h 1 s _ _ _ _ _ _ _ [] ⟨rfl, rfl⟩ hbounds ⟨rfl, rfl⟩ ⟨rfl, by decide⟩ ⟨rfl, rfl⟩ ⟨rfl, rfl⟩
      ⟨rfl, rfl⟩
  have hgroup : expression (construct 1) [";"] s (.sign "(" 1 :: (.word "java" 1 :: ts ++
      .sign ")" 1 :: .word "int" 1 :: behind)) =
        recording _ (expression (construct 1) [";"] s (.word "int" 1 :: behind)) :=
    expression_chain_group ⟨rfl, rfl⟩ hjava hts ⟨rfl, rfl⟩ (.of_primitive (by decide))
  -- the operand itself records nothing, so the two differ by the accesses of the type
  have hoperand : ExpressionForm (construct 1) [";"] s [.sign ";" 1]
      [.word "int" 1, .sign "." 1, .word "class" 1] [] :=
    .part (.token (by decide) (by decide) (by decide))
      (.part (.selectedClass ⟨rfl, rfl⟩ ⟨rfl, rfl⟩) .done)
  have hread : expression (construct 1) [";"] s (.word "int" 1 :: behind) = _ :=
    (hoperand.passes (by decide) (by decide)).expression (by decide)
  rw [hread] at hgroup hsame
  cases hgroup.symm.trans hsame

end Assay.Source
