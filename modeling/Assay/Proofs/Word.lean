import Assay.Source.Lookahead

/-!
# Words, signs and identifiers

The three sorts of token that programs are written with, literals apart: reserved words, signs and
identifiers. Of each it is settled once what it spells, so that a parser that asks for a given word
can be run on it.
-/

namespace Assay.Source

/-- The operators and separators that steer the reading of a program. -/
def signs : List String :=
  ["(", ")", "[", "]", "\x7b", "\x7d", ";", ",", ".", "...", ":", "::", "->", "@", "<", ">", "=",
    "?", "&", "|", "*", "-", "+", "/", "%", "!", "~", "++", "--", "==", "!=", "&&", "||"]

/-- A list begins with a word if its first token spells it. -/
@[simp] theorem begins_cons (word : String) (t : Token) (ts : List Token) :
    begins word (t :: ts) = t.spells word := rfl

/-- No tokens begin with no word. -/
@[simp] theorem begins_nil (word : String) : begins word [] = false := rfl

/-- A list starts with what its first token is. -/
@[simp] theorem startsWith_cons (p : Token → Bool) (t : Token) (ts : List Token) :
    startsWith p (t :: ts) = p t := rfl

/-- No tokens start with nothing. -/
@[simp] theorem startsWith_nil (p : Token → Bool) : startsWith p [] = false := rfl

/-- What begins with a word has a first token that spells it. -/
theorem begins_eq_true {word : String} {ts : List Token} (h : begins word ts) :
    ∃ t rest, ts = t :: rest ∧ t.spells word := by
  cases ts with
  | nil => cases h
  | cons t rest => exact ⟨t, rest, rfl, h⟩

/-- What starts with a token of some kind has a first token of that kind. -/
theorem startsWith_eq_true {test : Token → Bool} {ts : List Token} (h : startsWith test ts) :
    ∃ t rest, ts = t :: rest ∧ test t := by
  cases ts with
  | nil => cases h
  | cons t rest => exact ⟨t, rest, rfl, h⟩

namespace Token

/-- The token is the given word. -/
def IsWord (t : Token) (word : String) : Prop := t.kind = .identifier ∧ t.text = word

/-- The token is the given operator or separator. -/
def IsSign (t : Token) (sign : String) : Prop := t.kind = .operator ∧ t.text = sign

/-- A word on a line. -/
def word (text : String) (line : Nat) : Token := ⟨.identifier, text, line, line⟩

/-- An operator or separator on a line. -/
def sign (text : String) (line : Nat) : Token := ⟨.operator, text, line, line⟩

/-- The token is a name, and not written like a sign. -/
def IsIdentifier (t : Token) : Prop := t.isName ∧ t.text ∉ signs

instance (t : Token) (word : String) : Decidable (t.IsWord word) :=
  inferInstanceAs (Decidable (_ ∧ _))

instance (t : Token) (sign : String) : Decidable (t.IsSign sign) :=
  inferInstanceAs (Decidable (_ ∧ _))

instance (t : Token) : Decidable t.IsIdentifier := inferInstanceAs (Decidable (_ ∧ _))

variable {t : Token} {word sign : String}

/-- A token spells none of no words. -/
@[simp] theorem spellsAny_nil (t : Token) : t.spellsAny [] = false := by simp [Token.spellsAny]

/-- A token spells one of several words if it spells the first or one of the others. -/
@[simp] theorem spellsAny_cons (t : Token) (word : String) (words : List String) :
    t.spellsAny (word :: words) = (t.spells word || t.spellsAny words) := by
  rw [Token.spellsAny, Token.spells, Token.spellsAny, List.contains_cons, Bool.and_or_distrib_left]

/-- A token that spells a word spells no other. -/
theorem spells_of_spells (h : t.spells word) (other : String) : t.spells other = (word == other) := by
  rw [Token.spells, Bool.and_eq_true, beq_iff_eq] at h
  rw [Token.spells, h.1, h.2, Bool.true_and]

/-- Of several words a token spells the one that it spells, if that is among them. -/
theorem spellsAny_of_spells (h : t.spells word) (others : List String) :
    t.spellsAny others = others.contains word := by
  rw [Token.spells, Bool.and_eq_true, beq_iff_eq] at h
  rw [Token.spellsAny, h.1, h.2, Bool.true_and]

/-! ## Words -/

/-- A word spells itself and nothing else. -/
theorem IsWord.spells (h : t.IsWord word) (other : String) : t.spells other = (word == other) := by
  simp [Token.spells, isIdentifier, h.1, h.2]

/-- A word spells one of several if it is among them. -/
theorem IsWord.spellsAny (h : t.IsWord word) (others : List String) :
    t.spellsAny others = others.contains word := by
  simp [Token.spellsAny, isIdentifier, h.1, h.2]

/-- A word is a name unless it is a keyword. -/
theorem IsWord.isName (h : t.IsWord word) : t.isName = !keywords.contains word := by
  simp [Token.isName, isIdentifier, h.1, h.2]

/-- A word is a primitive type if it is on the list of them. -/
theorem IsWord.isPrimitive (h : t.IsWord word) :
    t.isPrimitive = primitiveTypes.contains word := by
  simp [Token.isPrimitive, isIdentifier, h.1, h.2]

/-- A word is no operator. -/
theorem IsWord.isOperator (h : t.IsWord word) : t.isOperator = false := by
  simp [Token.isOperator, h.1]

/-- A word is an identifier in the sense of the tokens. -/
theorem IsWord.isIdentifier (h : t.IsWord word) : t.isIdentifier = true := by
  simp [Token.isIdentifier, h.1]

/-- A word is no literal. -/
theorem IsWord.isLiteral (h : t.IsWord word) : t.isLiteral = false := by
  simp [Token.isLiteral, TokenKind.isLiteral, h.1]

/-! ## Signs -/

/-- A sign spells itself and nothing else. -/
theorem IsSign.spells (h : t.IsSign sign) (other : String) : t.spells other = (sign == other) := by
  simp [Token.spells, Token.isOperator, h.1, h.2]

/-- A sign spells one of several if it is among them. -/
theorem IsSign.spellsAny (h : t.IsSign sign) (others : List String) :
    t.spellsAny others = others.contains sign := by
  simp [Token.spellsAny, Token.isOperator, h.1, h.2]

/-- A sign is an operator in the sense of the tokens. -/
theorem IsSign.isOperator (h : t.IsSign sign) : t.isOperator = true := by
  simp [Token.isOperator, h.1]

/-- A sign is no name. -/
theorem IsSign.isName (h : t.IsSign sign) : t.isName = false := by
  simp [Token.isName, isIdentifier, h.1]

/-- A sign is no primitive type. -/
theorem IsSign.isPrimitive (h : t.IsSign sign) : t.isPrimitive = false := by
  simp [Token.isPrimitive, isIdentifier, h.1]

/-- A sign is no identifier. -/
theorem IsSign.isIdentifier (h : t.IsSign sign) : t.isIdentifier = false := by
  simp [Token.isIdentifier, h.1]

/-- A sign is no literal. -/
theorem IsSign.isLiteral (h : t.IsSign sign) : t.isLiteral = false := by
  simp [Token.isLiteral, TokenKind.isLiteral, h.1]

/-- A sign opens a group if it has a closing one. -/
theorem IsSign.closer? (h : t.IsSign sign) : t.closer? = bracketPairs.lookup sign := by
  simp [Token.closer?, Token.isOperator, h.1, h.2]

/-- A sign closes a group if it is on the list of those. -/
theorem IsSign.isCloser (h : t.IsSign sign) : t.isCloser = closers.contains sign := by
  simp [Token.isCloser, Token.isOperator, h.1, h.2]

/-! ## Identifiers -/

/-- An identifier is a name. -/
theorem IsIdentifier.isName (h : t.IsIdentifier) : t.isName = true := h.1

/-- An identifier has the kind of one. -/
theorem IsIdentifier.isIdentifier (h : t.IsIdentifier) : t.isIdentifier = true := by
  have := h.1
  rw [Token.isName, Bool.and_eq_true] at this
  exact this.1

/-- The text of an identifier is no keyword. -/
theorem IsIdentifier.not_keyword (h : t.IsIdentifier) : t.text ∉ keywords := by
  have := h.1
  rw [Token.isName, Bool.and_eq_true] at this
  simpa using this.2

/-- An identifier is no operator. -/
theorem IsIdentifier.isOperator (h : t.IsIdentifier) : t.isOperator = false := by
  have := h.isIdentifier
  cases hk : t.kind <;> simp_all [Token.isIdentifier, Token.isOperator]

/-- An identifier is no reserved word and no sign. -/
theorem IsIdentifier.spells (h : t.IsIdentifier) (word : String) (hw : word ∈ keywords ++ signs) :
    t.spells word = false := by
  have hne : t.text ≠ word := by
    rintro rfl
    rcases List.mem_append.1 hw with hw | hw
    · exact h.not_keyword hw
    · exact h.2 hw
  simp [Token.spells, hne]

/-- An identifier spells no keyword and no sign of a list. -/
theorem IsIdentifier.spellsAny (h : t.IsIdentifier) (words : List String)
    (hw : ∀ word ∈ words, word ∈ keywords ++ signs) : t.spellsAny words = false := by
  have hne : t.text ∉ words := fun hmem => by
    rcases List.mem_append.1 (hw _ hmem) with hw | hw
    · exact h.not_keyword hw
    · exact h.2 hw
  simp [Token.spellsAny, hne]

/-- What an identifier is not, of the signs that parsers ask for. -/
theorem IsIdentifier.spells_signs (h : t.IsIdentifier) :
    t.spells "(" = false ∧ t.spells ")" = false ∧ t.spells "[" = false ∧ t.spells "]" = false ∧
      t.spells "\x7b" = false ∧ t.spells "\x7d" = false ∧ t.spells ";" = false ∧
      t.spells "," = false ∧ t.spells "." = false ∧ t.spells "..." = false ∧
      t.spells ":" = false ∧ t.spells "::" = false ∧ t.spells "->" = false ∧
      t.spells "@" = false ∧ t.spells "<" = false ∧ t.spells ">" = false ∧ t.spells "=" = false ∧
      t.spells "?" = false ∧ t.spells "&" = false ∧ t.spells "|" = false ∧ t.spells "-" = false := by
  repeat' apply And.intro
  all_goals exact h.spells _ (by decide)

/-- What an identifier is not, of the words that parsers ask for. -/
theorem IsIdentifier.spells_words (h : t.IsIdentifier) :
    t.spells "if" = false ∧ t.spells "else" = false ∧ t.spells "for" = false ∧
      t.spells "while" = false ∧ t.spells "do" = false ∧ t.spells "try" = false ∧
      t.spells "catch" = false ∧ t.spells "finally" = false ∧ t.spells "switch" = false ∧
      t.spells "case" = false ∧ t.spells "default" = false ∧ t.spells "synchronized" = false ∧
      t.spells "throw" = false ∧ t.spells "throws" = false ∧ t.spells "new" = false ∧
      t.spells "this" = false ∧ t.spells "super" = false ∧ t.spells "instanceof" = false ∧
      t.spells "class" = false ∧ t.spells "interface" = false ∧ t.spells "enum" = false ∧
      t.spells "static" = false ∧ t.spells "void" = false := by
  repeat' apply And.intro
  all_goals exact h.spells _ (by decide)

/-- An identifier is no primitive type. -/
theorem IsIdentifier.isPrimitive (h : t.IsIdentifier) : t.isPrimitive = false := by
  have hsub : ∀ word ∈ primitiveTypes, word ∈ keywords := by decide
  have hne : t.text ∉ primitiveTypes := fun hmem => h.not_keyword (hsub _ hmem)
  simp [Token.isPrimitive, hne]

/-- An identifier opens no group. -/
theorem IsIdentifier.closer? (h : t.IsIdentifier) : t.closer? = none := by
  simp [Token.closer?, h.isOperator]

/-- An identifier closes no group. -/
theorem IsIdentifier.isCloser (h : t.IsIdentifier) : t.isCloser = false := by
  simp [Token.isCloser, h.isOperator]

/-! ## Literals -/

/-- A literal spells nothing. -/
theorem spells_of_isLiteral (h : t.isLiteral) (word : String) : t.spells word = false := by
  cases hk : t.kind <;>
    simp_all [Token.isLiteral, TokenKind.isLiteral, Token.spells, Token.isIdentifier,
      Token.isOperator]

/-- A literal is no operator. -/
theorem isOperator_of_isLiteral (h : t.isLiteral) : t.isOperator = false := by
  cases hk : t.kind <;> simp_all [Token.isLiteral, TokenKind.isLiteral, Token.isOperator]

/-- A literal is no identifier. -/
theorem isIdentifier_of_isLiteral (h : t.isLiteral) : t.isIdentifier = false := by
  cases hk : t.kind <;> simp_all [Token.isLiteral, TokenKind.isLiteral, Token.isIdentifier]

end Token

/-! ## Words that declare a type -/

/-- The tokens start with what declares a type of some kind, so many before its name. -/
inductive TypeKeyword : List Token → DeclarationKind → Nat → Prop
  | classType {t : Token} {ts : List Token} (ht : t.spells "class") :
      TypeKeyword (t :: ts) .classType 1
  | interfaceType {t : Token} {ts : List Token} (ht : t.spells "interface") :
      TypeKeyword (t :: ts) .interfaceType 1
  | enumType {t : Token} {ts : List Token} (ht : t.spells "enum") : TypeKeyword (t :: ts) .enumType 1
  | annotationType {sign t : Token} {ts : List Token} (hsign : sign.spells "@")
      (ht : t.spells "interface") : TypeKeyword (sign :: t :: ts) .annotationType 2
  | recordType {t declared l : Token} {ts : List Token} (ht : t.spells "record")
      (hdeclared : declared.isName) (hl : l.spellsAny ["(", "<"]) :
      TypeKeyword (t :: declared :: l :: ts) .recordType 1

/-- A keyword of a type that is found is there, with the signs before it. -/
theorem TypeKeyword.of_eq_some {ts : List Token} {kind : DeclarationKind} {length : Nat}
    (h : typeKeyword? ts = some (kind, length)) : TypeKeyword ts kind length := by
  cases ts with
  | nil => cases h
  | cons t ts =>
    rw [typeKeyword?] at h
    split at h
    case isTrue ht =>
      cases h
      exact .classType ht
    split at h
    case isTrue ht =>
      cases h
      exact .interfaceType ht
    split at h
    case isTrue ht =>
      cases h
      exact .enumType ht
    split at h
    case isTrue ht =>
      cases h
      obtain ⟨hsign, hbegins⟩ := Bool.and_eq_true_iff.1 ht
      obtain ⟨u, ts, rfl, hu⟩ := begins_eq_true hbegins
      exact .annotationType hsign hu
    split at h
    case isTrue ht =>
      cases h
      obtain ⟨hrecord, hopen⟩ := Bool.and_eq_true_iff.1 ht
      obtain ⟨hword, hname⟩ := Bool.and_eq_true_iff.1 hrecord
      obtain ⟨declared, ts, rfl, hdeclared⟩ := startsWith_eq_true hname
      obtain ⟨l, ts, hts, hl⟩ := startsWith_eq_true hopen
      rw [List.tail_cons] at hts
      subst hts
      exact .recordType hword hdeclared hl
    cases h

end Assay.Source
