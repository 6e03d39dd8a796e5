import Assay.Proofs.TypeGrammar
import Assay.Source.Body

/-!
# Rounds of an expression

An expression is passed over in rounds, one part of it a round. What a round reads and records is
stated here for operands and operators, and `Passes` puts the rounds of several parts together.
-/

namespace Assay.Source

/-- The binary operators that stand between operands. -/
def binaryOperators : List String := ["+", "-", "*", "/", "%", "==", "!=", "&&", "||"]

/-- The token is a binary operator. -/
def Token.IsBinary (t : Token) : Prop := t.kind = .operator ∧ t.text ∈ binaryOperators

theorem Token.IsBinary.spells {t : Token} (h : t.IsBinary) (word : String)
    (hw : word ∉ binaryOperators) : t.spells word = false := by
  have hne : t.text ≠ word := fun heq => hw (heq ▸ h.2)
  simp [Token.spells, hne]

theorem Token.IsBinary.isName {t : Token} (h : t.IsBinary) : t.isName = false := by
  simp [Token.isName, Token.isIdentifier, h.1]

theorem Token.IsBinary.isCloser {t : Token} (h : t.IsBinary) : t.isCloser = false := by
  have hsub : ∀ op ∈ binaryOperators, op ∉ closers := by decide
  simp [Token.isCloser, hsub _ h.2]

theorem Token.isName_of_isLiteral {t : Token} (h : t.isLiteral) : t.isName = false := by
  simp [Token.isName, isIdentifier_of_isLiteral h]

theorem Token.isCloser_of_isLiteral {t : Token} (h : t.isLiteral) : t.isCloser = false := by
  simp [Token.isCloser, isOperator_of_isLiteral h]

namespace Parser

variable {nested : Construct → Parser Unit} {stop : List String} {s : Scope} {t : Token}
  {ts rest : List Token} {facts : List Fact}

/-- One round of passing over an expression. -/
def expressionRound (nested : Construct → Parser Unit) (stop : List String) (afterArrow : Bool) :
    Parser (Bool ⊕ Unit) := do
  match ← ahead with
  | [] => failAhead fun _ => .unexpectedEnd
  | t :: rest =>
    if t.isCloser || (t.isOperator && stop.contains t.text) then return .inr ()
    else return .inl (← expressionPart nested stop afterArrow t rest)

/-- An expression is read round by round. -/
theorem expression_eq (nested : Construct → Parser Unit) (stop : List String) :
    expression nested stop = iterate (expressionRound nested stop) false := rfl

/-- The token ends an expression with the given ends. -/
def Ends (stop : List String) (t : Token) : Prop :=
  (t.isCloser || (t.isOperator && stop.contains t.text)) = true

instance (stop : List String) (t : Token) : Decidable (Ends stop t) :=
  inferInstanceAs (Decidable (_ = true))

/-- An expression ends where a stop word or a closer stands. -/
theorem expression_done (h : Ends stop t) (afterArrow : Bool) (s : Scope) (rest : List Token) :
    iterate (expressionRound nested stop) afterArrow s (t :: rest) = .ok ⟨(), [], t :: rest⟩ := by
  have hend : (t.isCloser || (t.isOperator && stop.contains t.text)) = true := h
  apply iterate_done
  rw [expressionRound, bind_of_ok (ahead_apply s _)]
  simp only [recording_nil]
  rw [if_pos hend]
  rfl

/-- The parts `ts` of an expression are passed over: the rounds go on after them, with no arrow
before, and record the facts. -/
def Passes (nested : Construct → Parser Unit) (stop : List String) (s : Scope) (ts : List Token)
    (facts : List Fact) (rest : List Token) : Prop :=
  ∀ afterArrow, iterate (expressionRound nested stop) afterArrow s (ts ++ rest) =
    recording facts (iterate (expressionRound nested stop) false s rest)

/-- One part of an expression is passed over in one round. -/
theorem round_of_part {value afterArrow : Bool} (hends : ¬ Ends stop t)
    (hpart : expressionPart nested stop afterArrow t ts s (t :: ts) = .ok ⟨value, facts, rest⟩)
    (hle : rest.length ≤ ts.length) :
    iterate (expressionRound nested stop) afterArrow s (t :: ts) =
      recording facts (iterate (expressionRound nested stop) value s rest) := by
  have hgoes : ¬ (t.isCloser || (t.isOperator && stop.contains t.text)) = true := hends
  refine iterate_again ?_ (Nat.lt_succ_of_le hle)
  rw [expressionRound, bind_of_ok (ahead_apply s _)]
  simp only [recording_nil]
  rw [if_neg hgoes, bind_of_ok hpart]
  simp

/-- A part read in one round passes. -/
theorem Passes.of_part {us : List Token} (hends : ¬ Ends stop t)
    (hpart : ∀ afterArrow, expressionPart nested stop afterArrow t (us ++ rest) s
      (t :: (us ++ rest)) = .ok ⟨false, facts, rest⟩) :
    Passes nested stop s (t :: us) facts rest := fun afterArrow =>
  round_of_part hends (hpart afterArrow) (by simp)

/-- Parts that follow one another are passed over one after the other. -/
theorem Passes.append {us : List Token} {more : List Fact}
    (hts : Passes nested stop s ts facts (us ++ rest)) (hus : Passes nested stop s us more rest) :
    Passes nested stop s (ts ++ us) (facts ++ more) rest := by
  intro afterArrow
  rw [List.append_assoc, hts afterArrow, hus false, recording_recording]

/-- An expression whose parts are passed over stops at the token that ends it. -/
theorem Passes.expression (h : Passes nested stop s ts facts (t :: rest)) (ht : Ends stop t) :
    expression nested stop s (ts ++ t :: rest) = .ok ⟨(), facts, t :: rest⟩ := by
  rw [expression_eq, h false, expression_done ht]
  simp

/-! ## Operands and operators -/

/-- An identifier ends no expression. -/
theorem not_ends_of_isIdentifier (h : t.IsIdentifier) : ¬ Ends stop t := by
  simp [Ends, h.isCloser, h.isOperator]

/-- A literal ends no expression. -/
theorem not_ends_of_isLiteral (h : t.isLiteral) : ¬ Ends stop t := by
  simp [Ends, Token.isCloser_of_isLiteral h, Token.isOperator_of_isLiteral h]

/-- The signs and words that start a part of an expression. -/
def partWords : List String :=
  ["(", "->", "[", "\x7b", "::", ".", "new", "switch", "this", "super", "instanceof"]

/-- A token that says nothing is skipped. -/
theorem expressionPart_skipped (hname : t.isName = false)
    (hspells : ∀ word ∈ partWords, t.spells word = false) (afterArrow : Bool) :
    expressionPart nested stop afterArrow t rest s (t :: rest) = .ok ⟨false, [], rest⟩ := by
  simp only [partWords, List.mem_cons, List.not_mem_nil, or_false, forall_eq_or_imp, forall_eq] at hspells
  simp [expressionPart, bind_apply, hname, hspells]

/-- A literal is passed over. -/
theorem passes_literal (h : t.isLiteral) (rest : List Token) :
    Passes nested stop s [t] [] rest :=
  .of_part (not_ends_of_isLiteral h) fun afterArrow =>
    expressionPart_skipped (Token.isName_of_isLiteral h)
      (fun word _ => Token.spells_of_isLiteral h word) afterArrow

/-- A binary operator that does not end the expression is passed over. -/
theorem passes_binary (h : t.IsBinary) (hstop : t.text ∉ stop) (rest : List Token) :
    Passes nested stop s [t] [] rest := by
  have hnone : ∀ word ∈ partWords, word ∉ binaryOperators := by decide
  refine .of_part ?_ fun afterArrow =>
    expressionPart_skipped h.isName (fun word hw => h.spells word (hnone word hw)) afterArrow
  simp [Ends, h.isCloser, hstop]

end Parser

end Assay.Source
