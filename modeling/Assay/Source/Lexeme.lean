import Assay.Source.Token
import Assay.Text.Digit
import Assay.Text.Space
import Assay.Text.Word

/-!
# Lexemes

A recogniser splits a lexeme off the front of a text, or declines. Recognisers are put together from
single characters, runs and delimited bodies; `lexeme?` tries those of the Java lexical classes in a
fixed order and takes the first that fits. Main statement: what `lexeme?` splits off is not empty,
and lexeme and rest make up the text (`lexeme?_splits`).
-/

namespace Assay.Source

/-- Splits a lexeme off the front of a text: the lexeme and the rest. -/
abbrev Recogniser := List Char → Option (List Char × List Char)

/-! ## Building blocks -/

/-- One character of a class. -/
def one (p : Char → Bool) : Recogniser
  | [] => none
  | c :: cs => if p c then some ([c], cs) else none

/-- The longest run of characters of a class, possibly empty. -/
def run (p : Char → Bool) : Recogniser := fun cs => some (cs.takeWhile p, cs.dropWhile p)

/-- The given characters. -/
def exactly (word : List Char) : Recogniser := fun cs =>
  if word.isPrefixOf cs then some (word, cs.drop word.length) else none

/-- One lexeme directly after another. -/
def andThen (first second : Recogniser) : Recogniser := fun cs =>
  match first cs with
  | none => none
  | some (l, rest) => (second rest).map fun (m, rest) => (l ++ m, rest)

/-- The lexeme if it is there, else the empty one. -/
def optional (r : Recogniser) : Recogniser := fun cs => (r cs).or (some ([], cs))

/-- The first lexeme that is there. -/
def either (first second : Recogniser) : Recogniser := fun cs => (first cs).or (second cs)

/-- Several lexemes, each directly after the one before. -/
def inOrder (rs : List Recogniser) : Recogniser := rs.foldr andThen fun cs => some ([], cs)

/-- The first of several lexemes that is there. -/
def firstOf (rs : List Recogniser) : Recogniser := rs.foldr either fun _ => none

/-- The lexeme, unless the text goes on with the given character. -/
def unlessNext (stop : Char) (r : Recogniser) : Recogniser := fun cs =>
  if cs.head? == some stop then none else r cs

/-- A non-empty run of characters of a class. -/
def runOf (p : Char → Bool) : Recogniser := andThen (one p) (run p)

/-- Everything up to the first occurrence of the given characters, and these. -/
def through (close : List Char) : Recogniser
  | [] => none
  | c :: cs =>
    if close.isPrefixOf (c :: cs) then some (close, (c :: cs).drop close.length)
    else (through close cs).map fun (l, rest) => (c :: l, rest)

/-- Everything up to the first three double quotes that no backslash precedes, and these. -/
def throughTripleQuote (afterBackslash : Bool) : Recogniser
  | [] => none
  | c :: cs =>
    if !afterBackslash && ['"', '"', '"'].isPrefixOf (c :: cs) then
      some (['"', '"', '"'], (c :: cs).drop 3)
    else (throughTripleQuote (c == '\\') cs).map fun (l, rest) => (c :: l, rest)

/-- Everything up to the first quote that is not escaped, and this quote; all on one line. -/
def throughQuote (quote : Char) : Recogniser
  | [] => none
  | '\\' :: c :: cs =>
    if c == '\n' then none
    else (throughQuote quote cs).map fun (l, rest) => ('\\' :: c :: l, rest)
  | c :: cs =>
    if c == quote then some ([c], cs)
    else if c == '\\' || c == '\r' || c == '\n' then none
    else (throughQuote quote cs).map fun (l, rest) => (c :: l, rest)

/-! ## The lexical classes -/

/-- A documentation comment; the empty comment is not one. -/
def docComment : Recogniser :=
  andThen (exactly ['/', '*', '*']) (unlessNext '/' (through ['*', '/']))

/-- A comment between delimiters. -/
def blockComment : Recogniser := andThen (exactly ['/', '*']) (through ['*', '/'])

/-- A comment to the end of its line. -/
def lineComment : Recogniser :=
  andThen (exactly ['/', '/']) (run fun c => c != '\r' && c != '\n')

/-- A text block. -/
def textBlock : Recogniser := andThen (exactly ['"', '"', '"']) (throughTripleQuote false)

/-- A string literal on one line. -/
def stringLiteral : Recogniser := andThen (exactly ['"']) (throughQuote '"')

/-- A character literal; any number of characters but none is let through. -/
def characterLiteral : Recogniser :=
  andThen (exactly ['\'']) (unlessNext '\'' (throughQuote '\''))

/-- One character of a list. -/
def oneOf (cs : List Char) : Recogniser := one fun c => cs.contains c

/-- A hexadecimal digit or an underscore. -/
def isHexPart (c : Char) : Bool :=
  c.isDigit || ('a' ≤ c && c ≤ 'f') || ('A' ≤ c && c ≤ 'F') || c == '_'

/-- A decimal digit or an underscore. -/
def isDecimalPart (c : Char) : Bool := Text.isDecimalDigit c || c == '_'

/-- A decimal digit and any digits and underscores after it. -/
def digits : Recogniser := andThen (one Text.isDecimalDigit) (run isDecimalPart)

/-- A hexadecimal number with a binary exponent. -/
def hexFloat : Recogniser :=
  inOrder [exactly ['0'], oneOf ['x', 'X'], run isHexPart, optional (exactly ['.']), run isHexPart,
    oneOf ['p', 'P'], optional (oneOf ['+', '-']), digits, optional (oneOf ['f', 'F', 'd', 'D'])]

/-- A hexadecimal integer. -/
def hexInteger : Recogniser :=
  inOrder [exactly ['0'], oneOf ['x', 'X'], runOf isHexPart, optional (oneOf ['l', 'L'])]

/-- A binary integer. -/
def binaryInteger : Recogniser :=
  inOrder [exactly ['0'], oneOf ['b', 'B'], runOf fun c => c == '0' || c == '1' || c == '_',
    optional (oneOf ['l', 'L'])]

/-- A decimal number: with a point after or before its digits or without one, with an optional
exponent and an optional type letter. -/
def decimalNumber : Recogniser :=
  inOrder
    [firstOf
        [inOrder [digits, exactly ['.'], optional digits], andThen (exactly ['.']) digits, digits],
      optional (inOrder [oneOf ['e', 'E'], optional (oneOf ['+', '-']), digits]),
      optional (oneOf ['l', 'L', 'f', 'F', 'd', 'D'])]

/-- A number. -/
def number : Recogniser := firstOf [hexFloat, hexInteger, binaryInteger, decimalNumber]

/-- The character can start an identifier. -/
def startsIdentifier (c : Char) : Bool :=
  (Text.isWordChar c && !Text.isDecimalDigit c) || c == '$'

/-- The character can go on an identifier. -/
def continuesIdentifier (c : Char) : Bool := Text.isWordChar c || c == '$'

/-- An identifier or keyword. -/
def identifier : Recogniser := andThen (one startsIdentifier) (run continuesIdentifier)

/-- The operators of more than one character, longer ones before those they start with. A closing
angle bracket is never joined to another, so that nested type arguments close one at a time. -/
def compoundOperators : List String :=
  ["->", "::", "...", "++", "--", "&&", "||", "<<=", "<<", "==", "!=", "<=", ">=", "+=", "-=", "*=",
    "/=", "&=", "|=", "^=", "%="]

/-- The operators and separators of one character. -/
def simpleOperators : List Char := "\x7b\x7d()[];,.@=<>!~?:+-*/&|^%".toList

/-- An operator or separator. -/
def operator : Recogniser :=
  either (firstOf (compoundOperators.map fun word => exactly word.toList)) (oneOf simpleOperators)

/-- The lexical classes in the order in which they are tried; white space has no kind. -/
def classes : List (Option TokenKind × Recogniser) :=
  [(none, runOf Text.isWhiteSpace),
    (some .docComment, docComment),
    (some .blockComment, blockComment),
    (some .lineComment, lineComment),
    (some .string, textBlock),
    (some .string, stringLiteral),
    (some .character, characterLiteral),
    (some .number, number),
    (some .identifier, identifier),
    (some .operator, operator)]

/-- A lexeme split off a text. -/
structure Lexeme where
  kind : Option TokenKind
  text : List Char
  rest : List Char

/-- The lexeme of the first class that fits the front of the text. -/
def lexeme? (cs : List Char) : Option Lexeme :=
  classes.findSome? fun (kind, recognise) =>
    (recognise cs).map fun (text, rest) => ⟨kind, text, rest⟩

/-! ## What a recogniser found -/

section Found

variable {p : Char → Bool} {word cs l rest : List Char} {r s : Recogniser} {rs : List Recogniser}
  {found : List Char × List Char}

/-- One character that is read is the first, and is of the kind. -/
theorem one_inv (h : one p cs = some (l, rest)) : ∃ c, p c ∧ l = [c] ∧ cs = c :: rest := by
  cases cs with
  | nil => cases h
  | cons c cs =>
    simp only [one] at h
    split at h
    · next hc =>
      cases h
      exact ⟨c, hc, rfl, rfl⟩
    · cases h

/-- A word that is read comes first. -/
theorem exactly_inv (h : exactly word cs = some (l, rest)) : l = word ∧ cs = word ++ rest := by
  simp only [exactly] at h
  split at h
  · next hword =>
    cases h
    obtain ⟨t, rfl⟩ := List.isPrefixOf_iff_prefix.1 hword
    rw [List.drop_left]
    exact ⟨rfl, rfl⟩
  · cases h

/-- A word that comes first is read. -/
theorem exactly_append (word rest : List Char) : exactly word (word ++ rest) = some (word, rest) := by
  rw [exactly, if_pos (List.isPrefixOf_iff_prefix.2 (List.prefix_append word rest)), List.drop_left]

/-- Two parts that are read are read one behind the other. -/
theorem andThen_inv (h : andThen r s cs = some (l, rest)) :
    ∃ first mid second, r cs = some (first, mid) ∧ s mid = some (second, rest) ∧
      l = first ++ second := by
  simp only [andThen] at h
  split at h
  · cases h
  · next first mid hfirst =>
    obtain ⟨⟨second, rest'⟩, hsecond, heq⟩ := Option.map_eq_some_iff.1 h
    cases heq
    exact ⟨first, mid, second, hfirst, hsecond, rfl⟩

/-- What one of two recognisers reads is read by the first or by the second. -/
theorem either_inv (h : either r s cs = some found) : r cs = some found ∨ s cs = some found := by
  simp only [either] at h
  cases hr : r cs with
  | none =>
    rw [hr, Option.none_or] at h
    exact .inr h
  | some _ =>
    rw [hr, Option.some_or] at h
    exact .inl h

/-- An optional part is read or nothing is. -/
theorem optional_inv (h : optional r cs = some (l, rest)) :
    r cs = some (l, rest) ∨ l = [] ∧ rest = cs := by
  rcases either_inv (s := fun cs => some ([], cs)) h with hr | hs
  · exact .inl hr
  · cases hs
    exact .inr ⟨rfl, rfl⟩

/-- What the first of several recognisers reads is read by one of them. -/
theorem firstOf_inv (h : firstOf rs cs = some found) : ∃ r ∈ rs, r cs = some found := by
  induction rs with
  | nil => cases h
  | cons r rs ih =>
    rcases either_inv h with hr | hrest
    · exact ⟨r, List.mem_cons_self, hr⟩
    · obtain ⟨s, hs, hfound⟩ := ih hrest
      exact ⟨s, List.mem_cons_of_mem r hs, hfound⟩

/-- What is read unless something comes next is read anyway. -/
theorem unlessNext_inv {stop : Char} (h : unlessNext stop r cs = some found) :
    r cs = some found := by
  simp only [unlessNext] at h
  split at h
  · cases h
  · exact h

end Found

/-! ## Lexeme and rest make up the text -/

/-- What the recogniser splits off and what it leaves make up the text. -/
def Splits (r : Recogniser) : Prop := ∀ cs l rest, r cs = some (l, rest) → l ++ rest = cs

/-- The recogniser splits off something. -/
def Consumes (r : Recogniser) : Prop := ∀ cs l rest, r cs = some (l, rest) → l ≠ []

/-- One character splits the text. -/
theorem splits_one (p : Char → Bool) : Splits (one p) := by
  intro cs l rest h
  obtain ⟨c, -, rfl, rfl⟩ := one_inv h
  rfl

/-- A run of characters splits the text. -/
theorem splits_run (p : Char → Bool) : Splits (run p) := by
  intro cs l rest h
  cases h
  exact List.takeWhile_append_dropWhile

/-- A word splits the text. -/
theorem splits_exactly (word : List Char) : Splits (exactly word) := by
  intro cs l rest h
  obtain ⟨rfl, rfl⟩ := exactly_inv h
  rfl

/-- One part and then another split the text. -/
theorem Splits.andThen {r s : Recogniser} (hr : Splits r) (hs : Splits s) :
    Splits (andThen r s) := by
  intro cs l rest h
  obtain ⟨first, mid, second, hfirst, hsecond, rfl⟩ := andThen_inv h
  rw [List.append_assoc, hs _ _ _ hsecond, hr _ _ _ hfirst]

/-- An optional part splits the text. -/
theorem Splits.optional {r : Recogniser} (hr : Splits r) : Splits (optional r) := by
  intro cs l rest h
  rcases optional_inv h with hfound | ⟨rfl, rfl⟩
  · exact hr _ _ _ hfound
  · rfl

/-- Either of two parts splits the text. -/
theorem Splits.either {r s : Recogniser} (hr : Splits r) (hs : Splits s) :
    Splits (either r s) := fun cs l rest h => (either_inv h).elim (hr cs l rest) (hs cs l rest)

/-- Parts in a row split the text. -/
theorem splits_inOrder {rs : List Recogniser} (h : ∀ r ∈ rs, Splits r) : Splits (inOrder rs) := by
  induction rs with
  | nil => intro cs l rest h; cases h; rfl
  | cons r rs ih =>
    exact (h r (by simp)).andThen (ih fun s hs => h s (by simp [hs]))

/-- The first of several parts splits the text. -/
theorem splits_firstOf {rs : List Recogniser} (h : ∀ r ∈ rs, Splits r) : Splits (firstOf rs) := by
  intro cs l rest hl
  obtain ⟨r, hr, hfound⟩ := firstOf_inv hl
  exact h r hr cs l rest hfound

/-- A part that depends on what comes next splits the text. -/
theorem Splits.unlessNext {r : Recogniser} (hr : Splits r) (stop : Char) :
    Splits (unlessNext stop r) := fun cs l rest h => hr cs l rest (unlessNext_inv h)

/-- What ends with a given word splits the text. -/
theorem splits_through (close : List Char) : Splits (through close) := by
  intro cs
  induction cs with
  | nil => intro l rest h; cases h
  | cons c cs ih =>
    intro l rest h
    simp only [through] at h
    split at h
    · next hw =>
      cases h
      obtain ⟨t, ht⟩ := List.isPrefixOf_iff_prefix.1 hw
      rw [← ht]; simp
    · obtain ⟨⟨m, rest'⟩, hm, heq⟩ := Option.map_eq_some_iff.1 h
      cases heq
      rw [List.cons_append, ih _ _ hm]

/-- The rest of a text block splits the text. -/
theorem splits_throughTripleQuote (cs : List Char) : ∀ after l rest,
    throughTripleQuote after cs = some (l, rest) → l ++ rest = cs := by
  induction cs with
  | nil => intro after l rest h; cases h
  | cons c cs ih =>
    intro after l rest h
    simp only [throughTripleQuote] at h
    split at h
    · next hw =>
      cases h
      simp only [Bool.and_eq_true] at hw
      obtain ⟨t, ht⟩ := List.isPrefixOf_iff_prefix.1 hw.2
      rw [← ht]; simp
    · obtain ⟨⟨m, rest'⟩, hm, heq⟩ := Option.map_eq_some_iff.1 h
      cases heq
      rw [List.cons_append, ih _ _ _ hm]

/-- The rest of a quoted text splits the text. -/
theorem splits_throughQuote (quote : Char) : Splits (throughQuote quote) := by
  intro cs
  fun_induction throughQuote quote cs with
  | case1 => intro l rest h; cases h
  | case2 => intro l rest h; cases h
  | case3 c cs _ ih =>
    intro l rest h
    obtain ⟨⟨m, rest'⟩, hm, heq⟩ := Option.map_eq_some_iff.1 h
    cases heq
    simp [ih _ _ hm]
  | case4 => intro l rest h; cases h; rfl
  | case5 => intro l rest h; cases h
  | case6 c cs _ _ _ ih =>
    intro l rest h
    obtain ⟨⟨m, rest'⟩, hm, heq⟩ := Option.map_eq_some_iff.1 h
    cases heq
    simp [ih _ _ hm]

/-- One character is not empty. -/
theorem consumes_one (p : Char → Bool) : Consumes (one p) := by
  intro cs l rest h
  obtain ⟨c, -, rfl, -⟩ := one_inv h
  exact List.cons_ne_nil c []

/-- A word is not empty. -/
theorem consumes_exactly {word : List Char} (hw : word ≠ []) : Consumes (exactly word) := by
  intro cs l rest h
  rwa [(exactly_inv h).1]

/-- Two parts are not empty if the first is not. -/
theorem Consumes.andThen {r : Recogniser} (hr : Consumes r) (s : Recogniser) :
    Consumes (andThen r s) := by
  intro cs l rest h
  obtain ⟨first, mid, second, hfirst, -, rfl⟩ := andThen_inv h
  exact List.append_ne_nil_of_left_ne_nil (hr _ _ _ hfirst) second

/-- Either of two parts is not empty if both are not. -/
theorem Consumes.either {r s : Recogniser} (hr : Consumes r) (hs : Consumes s) :
    Consumes (either r s) := fun cs l rest h => (either_inv h).elim (hr cs l rest) (hs cs l rest)

/-- The first of several parts is not empty if none of them is. -/
theorem consumes_firstOf {rs : List Recogniser} (h : ∀ r ∈ rs, Consumes r) :
    Consumes (firstOf rs) := by
  intro cs l rest hl
  obtain ⟨r, hr, hfound⟩ := firstOf_inv hl
  exact h r hr cs l rest hfound

/-- Digits split the text. -/
theorem splits_digits : Splits digits := (splits_one _).andThen (splits_run _)

/-- Digits are not empty. -/
theorem consumes_digits : Consumes digits := (consumes_one _).andThen _

/-- A decimal number splits the text. -/
theorem splits_decimalNumber : Splits decimalNumber := by
  apply splits_inOrder
  simp only [List.mem_cons, List.not_mem_nil, or_false, forall_eq_or_imp, forall_eq]
  refine ⟨splits_firstOf ?_, Splits.optional (splits_inOrder ?_), (splits_one _).optional⟩
  · simp only [List.mem_cons, List.not_mem_nil, or_false, forall_eq_or_imp, forall_eq]
    refine ⟨splits_inOrder ?_, (splits_exactly _).andThen splits_digits, splits_digits⟩
    simp only [List.mem_cons, List.not_mem_nil, or_false, forall_eq_or_imp, forall_eq]
    exact ⟨splits_digits, splits_exactly _, splits_digits.optional⟩
  · simp only [List.mem_cons, List.not_mem_nil, or_false, forall_eq_or_imp, forall_eq]
    exact ⟨splits_one _, (splits_one _).optional, splits_digits⟩

/-- A decimal number is not empty. -/
theorem consumes_decimalNumber : Consumes decimalNumber := by
  apply Consumes.andThen
  apply consumes_firstOf
  simp only [List.mem_cons, List.not_mem_nil, or_false, forall_eq_or_imp, forall_eq]
  exact ⟨consumes_digits.andThen _, (consumes_exactly (by simp)).andThen _, consumes_digits⟩

/-- A number splits the text. -/
theorem splits_number : Splits number := by
  apply splits_firstOf
  simp only [List.mem_cons, List.not_mem_nil, or_false, forall_eq_or_imp, forall_eq]
  refine ⟨splits_inOrder ?_, splits_inOrder ?_, splits_inOrder ?_, splits_decimalNumber⟩ <;>
    simp only [List.mem_cons, List.not_mem_nil, or_false, forall_eq_or_imp, forall_eq]
  · exact ⟨splits_exactly _, splits_one _, splits_run _, (splits_exactly _).optional, splits_run _,
      splits_one _, (splits_one _).optional, splits_digits, (splits_one _).optional⟩
  · exact ⟨splits_exactly _, splits_one _, (splits_one _).andThen (splits_run _),
      (splits_one _).optional⟩
  · exact ⟨splits_exactly _, splits_one _, (splits_one _).andThen (splits_run _),
      (splits_one _).optional⟩

/-- A number is not empty. -/
theorem consumes_number : Consumes number := by
  apply consumes_firstOf
  simp only [List.mem_cons, List.not_mem_nil, or_false, forall_eq_or_imp, forall_eq]
  exact ⟨(consumes_exactly (by simp)).andThen _, (consumes_exactly (by simp)).andThen _,
    (consumes_exactly (by simp)).andThen _, consumes_decimalNumber⟩

/-- An operator splits the text. -/
theorem splits_operator : Splits operator := by
  apply Splits.either _ (splits_one _)
  apply splits_firstOf
  intro r hr
  obtain ⟨word, _, rfl⟩ := List.mem_map.1 hr
  exact splits_exactly _

/-- An operator is not empty. -/
theorem consumes_operator : Consumes operator := by
  apply Consumes.either _ (consumes_one _)
  apply consumes_firstOf
  intro r hr
  obtain ⟨word, hw, rfl⟩ := List.mem_map.1 hr
  have nonempty : ∀ w ∈ compoundOperators, w.toList ≠ [] := by decide
  exact consumes_exactly (nonempty word hw)

/-- Every class splits its text and takes something of it. -/
theorem classes_split_and_consume :
    ∀ entry ∈ classes, Splits entry.2 ∧ Consumes entry.2 := by
  simp only [classes, List.mem_cons, List.not_mem_nil, or_false, forall_eq_or_imp, forall_eq]
  refine ⟨⟨(splits_one _).andThen (splits_run _), (consumes_one _).andThen _⟩, ?_, ?_, ?_, ?_, ?_,
    ?_, ⟨splits_number, consumes_number⟩, ?_, ⟨splits_operator, consumes_operator⟩⟩
  · exact ⟨(splits_exactly _).andThen ((splits_through _).unlessNext _),
      (consumes_exactly (by simp)).andThen _⟩
  · exact ⟨(splits_exactly _).andThen (splits_through _), (consumes_exactly (by simp)).andThen _⟩
  · exact ⟨(splits_exactly _).andThen (splits_run _), (consumes_exactly (by simp)).andThen _⟩
  · exact ⟨(splits_exactly _).andThen fun cs => splits_throughTripleQuote cs false,
      (consumes_exactly (by simp)).andThen _⟩
  · exact ⟨(splits_exactly _).andThen (splits_throughQuote _),
      (consumes_exactly (by simp)).andThen _⟩
  · exact ⟨(splits_exactly _).andThen ((splits_throughQuote _).unlessNext _),
      (consumes_exactly (by simp)).andThen _⟩
  · exact ⟨(splits_one _).andThen (splits_run _), (consumes_one _).andThen _⟩

/-- A lexeme is the front of the text, and is not empty. -/
theorem lexeme?_splits {cs : List Char} {x : Lexeme} (h : lexeme? cs = some x) :
    x.text ++ x.rest = cs ∧ x.text ≠ [] := by
  obtain ⟨entry, hmem, hx⟩ := List.exists_of_findSome?_eq_some h
  obtain ⟨⟨l, rest⟩, hr, rfl⟩ := Option.map_eq_some_iff.1 hx
  exact ⟨(classes_split_and_consume entry hmem).1 _ _ _ hr,
    (classes_split_and_consume entry hmem).2 _ _ _ hr⟩

/-- Behind a lexeme there is less text. -/
theorem lexeme?_shorter {cs : List Char} {x : Lexeme} (h : lexeme? cs = some x) :
    x.rest.length < cs.length := by
  obtain ⟨hsplit, hne⟩ := lexeme?_splits h
  have : 0 < x.text.length := List.length_pos_iff.2 hne
  rw [← hsplit, List.length_append]
  omega

end Assay.Source
