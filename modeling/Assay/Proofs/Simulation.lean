import Assay.Proofs.Reading
import Mathlib.Data.List.Forall2

/-!
# Two runs of a parser side by side

A `Simulation` says which token lists a parser cannot tell apart: two of its lists start with tokens
that are read alike, and so do their tails. One list may be known up to some point only, after which
the second goes on differently; how far the first run has come is told by `kept`, and `ended` holds
at that point, where no parser may look ahead any more. `Sim` is the judgement on two parsers. Its
first half is about the first parser alone, which only moves forward; the second half, that the runs
stay alike, holds under a premise `R` on the values read before. There is a rule for each way of
building parsers, so that the judgement of a parser follows its text.
-/

namespace Assay.Source

/-- Tokens that a parser cannot tell apart: they have the same kind and text, or both are literals,
and their lines are related. -/
def Token.Alike (line : Nat → Nat → Prop) (t u : Token) : Prop :=
  ((t.kind = u.kind ∧ t.text = u.text) ∨ (t.isLiteral ∧ u.isLiteral)) ∧ line t.line u.line

/-- Facts that differ in their lines only. -/
inductive Fact.Alike (line : Nat → Nat → Prop) : Fact → Fact → Prop
  | declaration {kind : DeclarationKind} {name owner : String} {m n arity : Nat}
      {varargs isStatic : Bool} (h : line m n) :
      Alike line (.declaration ⟨kind, name, m, owner, arity, varargs, isStatic⟩)
        (.declaration ⟨kind, name, n, owner, arity, varargs, isStatic⟩)
  | loop {kind : LoopKind} {m n : Nat} (h : line m n) :
      Alike line (.loop ⟨kind, m⟩) (.loop ⟨kind, n⟩)
  | catchClause {m n : Nat} (h : line m n) : Alike line (.catchClause m) (.catchClause n)
  | access {kind : AccessKind} {name qualifier : String} {qualifierKind : QualifierKind}
      {m n : Nat} {arity : Option Nat} (h : line m n) :
      Alike line (.access ⟨kind, name, qualifier, qualifierKind, m, arity⟩)
        (.access ⟨kind, name, qualifier, qualifierKind, n, arity⟩)
  | value (name : String) : Alike line (.value name) (.value name)
  | field (name : String) (isStatic : Bool) : Alike line (.field name isStatic) (.field name isStatic)
  | importOf (i : Import) : Alike line (.importOf i) (.importOf i)

/-- The token ends a declaration or statement. -/
def Token.IsLast (t : Token) : Prop := t.IsSign ";" ∨ t.IsSign "\x7d"

/-- The token spells the end of a declaration or statement. -/
def Token.Ends (t : Token) : Prop := t.spells ";" ∨ t.spells "\x7d"

/-- The outcomes of the search for the end of a group are alike. -/
def GroupAlike (line : Nat → Nat → Prop) (tokens : List Token → List Token → Prop)
    (strict : Prop) :
    Except (Option Token) (List Token × List Token) →
      Except (Option Token) (List Token × List Token) → Prop
  | .ok (inside, rest), o => ∃ inside' rest', o = .ok (inside', rest') ∧
      List.Forall₂ (Token.Alike line) inside inside' ∧ tokens rest rest'
  | .error none, o => strict → o = .error none
  | .error (some t), o => strict → ∃ u, o = .error (some u) ∧ t.Alike line u

/-- Which token lists a parser cannot tell apart. -/
structure Simulation where
  /-- The lines of tokens that are read alike. -/
  line : Nat → Nat → Prop
  /-- The tokens that the two runs have before them. -/
  tokens : List Token → List Token → Prop
  /-- The tokens that the two runs have before them at the end of what they have in common. -/
  ended : List Token → List Token → Prop
  /-- The first run has not come to that end. -/
  kept : List Token → Prop
  /-- The two runs are in files that end on related lines. -/
  whole : Prop
  /-- If one run fails, so does the other. -/
  strict : Prop
  uncons : ∀ {ts us}, tokens ts us → (ts = [] ∧ us = [] ∧ whole) ∨ ∃ t ts' u us', ts = t :: ts' ∧
    us = u :: us' ∧ t.Alike line u ∧ (tokens ts' us' ∨ (t.IsLast ∧ ended ts' us'))
  shorter : ∀ {ts us rest rest'}, tokens ts us → tokens rest rest' →
    (rest.length < ts.length ↔ rest'.length < us.length)
  kept_of_suffix : ∀ {rest ts}, rest <:+ ts → kept rest → kept ts
  not_kept : ∀ {ts us}, ended ts us → ¬ kept ts
  kept_of_ended : ∀ {rest us ts}, ended rest us → rest <:+ ts → rest.length < ts.length → kept ts
  kept_of_strict : strict → ∀ ts, kept ts
  whole_of_strict : strict → whole
  splitGroup : ∀ {l l' ts us}, tokens (l :: ts) (l' :: us) → l.spells "(" →
    GroupAlike line tokens strict (splitGroup l.closer?.toList ts) (splitGroup l'.closer?.toList us)
  isForEach : ∀ {ts us}, tokens ts us → begins "for" ts → begins "(" ts.tail →
    isForEach 0 0 ts.tail.tail = isForEach 0 0 us.tail.tail

namespace Simulation

variable {α : Type} (σ : Simulation)

/-- The scopes of the two runs. -/
def Scopes (s s' : Scope) : Prop :=
  s.enclosing = s'.enclosing ∧ (σ.whole → σ.line s.lastLine s'.lastLine)

/-- The first run has not passed the end of what the runs have in common; the last parser may reach
it. -/
def Reached (last : Bool) (ts : List Token) : Prop := σ.kept ts ∨ (last ∧ ∃ us, σ.ended ts us)

/-- What the two runs leave. -/
def Left (last : Bool) (ts us : List Token) : Prop := σ.tokens ts us ∨ (last ∧ σ.ended ts us)

/-- The outcomes of the two runs are alike. -/
def Outcome (last : Bool) (V : α → α → Prop) :
    Except SourceError (Parsed α) → Except SourceError (Parsed α) → Prop
  | .ok r, o => σ.Reached last r.rest → ∃ r', o = .ok r' ∧ V r.value r'.value ∧
      List.Forall₂ (Fact.Alike σ.line) r.facts r'.facts ∧ σ.Left last r.rest r'.rest
  | .error e, o => σ.strict → ∃ e', o = .error e' ∧ e.fault.code = e'.fault.code ∧
      σ.line e.line e'.line

/-- What is left is a last part of the tokens. A last parser stops behind a token that ends
something. -/
def Forward (last : Bool) (ts : List Token) (o : Except SourceError (Parsed α)) : Prop :=
  ∀ r, o = .ok r → r.rest <:+ ts ∧ (last → ∃ pre t, ts = pre ++ t :: r.rest ∧ t.Ends)

/-- The runs of two parsers on given tokens are alike under a premise. -/
structure SimAt (R : Prop) (last : Bool) (V : α → α → Prop) (ts us : List Token)
    (p q : Parser α) : Prop where
  forward : ∀ s, Forward last ts (p s ts)
  alike : R → ∀ s s', σ.Scopes s s' → σ.Outcome last V (p s ts) (q s' us)

/-- The runs of two parsers on tokens that are read alike are alike under a premise. -/
def Sim (R : Prop) (last : Bool) (V : α → α → Prop) (p q : Parser α) : Prop :=
  ∀ ts us, σ.SimAt (R ∧ σ.tokens ts us) last V ts us p q

end Simulation

open Assay.Source.Parser

/-! ## Tokens that are read alike -/

namespace Token.Alike

variable {line : Nat → Nat → Prop} {t u : Token}

/-- Alike tokens are spelled alike. -/
theorem spells (h : t.Alike line u) (word : String) : t.spells word = u.spells word := by
  rcases h.1 with ⟨hkind, htext⟩ | ⟨ht, hu⟩
  · simp [Token.spells, isIdentifier, isOperator, hkind, htext]
  · rw [spells_of_isLiteral ht, spells_of_isLiteral hu]

/-- Alike tokens are identifiers together. -/
theorem isIdentifier (h : t.Alike line u) : t.isIdentifier = u.isIdentifier := by
  rcases h.1 with ⟨hkind, -⟩ | ⟨ht, hu⟩
  · simp [Token.isIdentifier, hkind]
  · rw [isIdentifier_of_isLiteral ht, isIdentifier_of_isLiteral hu]

/-- Alike tokens are literals together. -/
theorem isLiteral (h : t.Alike line u) : t.isLiteral = u.isLiteral := by
  rcases h.1 with ⟨hkind, -⟩ | ⟨ht, hu⟩
  · simp [Token.isLiteral, hkind]
  · rw [ht, hu]

/-- The texts of words and signs agree. -/
theorem text (h : t.Alike line u) (ht : t.isLiteral = false) : t.text = u.text := by
  rcases h.1 with ⟨-, htext⟩ | ⟨hlit, -⟩
  · exact htext
  · simp [hlit] at ht

/-- Alike tokens are among some words together. -/
theorem spellsAny (h : t.Alike line u) (words : List String) :
    t.spellsAny words = u.spellsAny words := by
  induction words with
  | nil => simp
  | cons word words ih => rw [spellsAny_cons, spellsAny_cons, h.spells, ih]

/-- Alike tokens that are a word have its text. -/
theorem text_of_spellsAny {words : List String} (h : t.Alike line u) (ht : t.spellsAny words) :
    t.text = u.text := by
  refine h.text ?_
  cases hlit : t.isLiteral with
  | false => rfl
  | true =>
    rw [Token.spellsAny, isIdentifier_of_isLiteral hlit, isOperator_of_isLiteral hlit] at ht
    cases ht

/-- A test that only looks at the text of words gives the same on both. -/
theorem wordTest (h : t.Alike line u) (test : String → Bool) :
    (t.isIdentifier && test t.text) = (u.isIdentifier && test u.text) := by
  rcases h.1 with ⟨hkind, htext⟩ | ⟨ht, hu⟩
  · simp [Token.isIdentifier, hkind, htext]
  · rw [isIdentifier_of_isLiteral ht, isIdentifier_of_isLiteral hu]
    rfl

/-- A test that only looks at the text of signs gives the same on both. -/
theorem signTest (h : t.Alike line u) (test : String → Bool) :
    (t.isOperator && test t.text) = (u.isOperator && test u.text) := by
  rcases h.1 with ⟨hkind, htext⟩ | ⟨ht, hu⟩
  · simp [Token.isOperator, hkind, htext]
  · rw [isOperator_of_isLiteral ht, isOperator_of_isLiteral hu]
    rfl

/-- Alike tokens are names together. -/
theorem isName (h : t.Alike line u) : t.isName = u.isName :=
  h.wordTest fun text => !keywords.contains text

/-- Alike tokens are primitive types together. -/
theorem isPrimitive (h : t.Alike line u) : t.isPrimitive = u.isPrimitive :=
  h.wordTest primitiveTypes.contains

/-- Alike tokens are closers together. -/
theorem isCloser (h : t.Alike line u) : t.isCloser = u.isCloser := h.signTest closers.contains

/-- Alike tokens open groups with the same closer. -/
theorem closer? (h : t.Alike line u) : t.closer? = u.closer? := by
  rcases h.1 with ⟨hkind, htext⟩ | ⟨ht, hu⟩
  · simp [Token.closer?, Token.isOperator, hkind, htext]
  · simp [Token.closer?, isOperator_of_isLiteral ht, isOperator_of_isLiteral hu]

/-- Alike tokens are openers together. -/
theorem isOpener (h : t.Alike line u) : t.isOpener = u.isOpener := by
  rw [Token.isOpener, Token.isOpener, h.closer?]

end Token.Alike

/-- Names that are read alike are the same. -/
def NameAlike (line : Nat → Nat → Prop) (t u : Token) : Prop :=
  t.Alike line u ∧ t.text = u.text

/-- Alike names have their text in common. -/
theorem Token.Alike.name {line : Nat → Nat → Prop} {t u : Token} (h : t.Alike line u)
    (ht : t.isName) : NameAlike line t u := by
  refine ⟨h, h.text ?_⟩
  cases hlit : t.isLiteral with
  | false => rfl
  | true => simp [Token.isName, Token.isIdentifier_of_isLiteral hlit] at ht

namespace Simulation

variable {σ : Simulation} {ts us : List Token}

/-- Both lists are empty, or their first tokens are read alike. -/
theorem head_alike (h : σ.tokens ts us) :
    (ts = [] ∧ us = []) ∨
      ∃ t ts' u us', ts = t :: ts' ∧ us = u :: us' ∧ t.Alike σ.line u := by
  rcases σ.uncons h with ⟨rfl, rfl, -⟩ | ⟨t, ts', u, us', rfl, rfl, halike, -⟩
  · exact .inl ⟨rfl, rfl⟩
  · exact .inr ⟨t, ts', u, us', rfl, rfl, halike⟩

/-- Related texts start with alike tokens. -/
theorem startsWith_alike (h : σ.tokens ts us) {p : Token → Bool}
    (hp : ∀ {t u}, t.Alike σ.line u → p t = p u) : startsWith p ts = startsWith p us := by
  rcases σ.head_alike h with ⟨rfl, rfl⟩ | ⟨t, ts', u, us', rfl, rfl, halike⟩
  · rfl
  · exact hp halike

/-- Related texts begin with the same words. -/
theorem begins_alike (h : σ.tokens ts us) (word : String) : begins word ts = begins word us :=
  startsWith_alike h fun halike => halike.spells word

end Simulation

end Assay.Source
