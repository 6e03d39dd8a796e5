import Assay.Markup.Coding
import Assay.Markup.Fault

/-!
# Scanning markup

The pieces that an XML document is made of: names, references, tags, comments and processing
instructions. A scanner is given the coding of the text, what is left of the text and, where it
can run into the end, the text at the start of its token: a token that the end cuts off is a fault
at its start, a character that does not fit is a fault where it stands.
-/

namespace Assay.Markup

/-- What comes of a text, or a fault and the text left where it arose. -/
abbrev Attempt := Except (Fault × List Char)

/-- A scanner's result: a value and the text after it, or a fault. -/
abbrev Scan (α : Type) := Attempt (α × List Char)

/-- The text ends inside a token, or a character stands where the grammar has no use for it. -/
def misfit {α : Type} (start place : List Char) : Attempt α :=
  if isAtEnd place then .error (.unclosedToken, start) else .error (.invalidToken, place)

/-- Like `misfit`, where a character of any kind is decoded first: one that is cut off is told as
that. -/
def unfit {α : Type} (start place : List Char) : Attempt α :=
  if place.head? == some cutOff then .error (.partialCharacter, start) else misfit start place

/-- The white space of markup. -/
def isSpace (c : Char) : Bool := c == ' ' || c == '\t' || c == '\n' || c == '\r'

/-- The text from the next character other than white space on. -/
def skipSpace (cs : List Char) : List Char := cs.dropWhile isSpace

/-- The character may stand in a document. -/
def isDocumentChar (c : Char) : Bool :=
  isSpace c || (0x20 ≤ c.toNat && c != malformed && c != cutOff)

/-! ## Names and references -/

/-- A name without a colon. What follows it is left to whoever looks for more. -/
def scanName (k : Coding) (start cs : List Char) : Scan (List Char) :=
  match cs with
  | [] => misfit start cs
  | c :: _ =>
    if k.startsName c then .ok (cs.takeWhile k.continuesName, cs.dropWhile k.continuesName)
    else unfit start cs

/-- A name that a colon may divide in two. -/
def scanQualifiedName (k : Coding) (start cs : List Char) : Scan (List Char) :=
  match scanName k start cs with
  | .error e => .error e
  | .ok (first, ':' :: rest) =>
    (scanName k start rest).map fun (second, rest) => (first ++ ':' :: second, rest)
  | .ok result => .ok result

/-- What a reference names: a character by its number, if there is one of the number, or an
entity. -/
inductive Reference
  | character (c : Option Char)
  | entity (name : List Char)

/-- The value of a digit. -/
def digitOf? (base : Nat) (c : Char) : Option Nat :=
  let value :=
    if '0' ≤ c && c ≤ '9' then c.toNat - '0'.toNat
    else if 'a' ≤ c && c ≤ 'f' then c.toNat - 'a'.toNat + 10
    else if 'A' ≤ c && c ≤ 'F' then c.toNat - 'A'.toNat + 10
    else base
  if value < base then some value else none

/-- The character of a number that a reference gives. -/
def charOfNumber? (n : Nat) : Option Char :=
  if 0x10FFFF < n || (0xD800 ≤ n && n ≤ 0xDFFF) then none
  else if isDocumentChar (Char.ofNat n) then some (Char.ofNat n) else none

/-- The digits of a character reference and its semicolon. -/
def scanCharacterNumber (base : Nat) (start cs : List Char) : Scan Reference :=
  let isDigit := fun c => (digitOf? base c).isSome
  let digits := cs.takeWhile isDigit
  match cs.dropWhile isDigit with
  | ';' :: rest =>
    if digits.isEmpty then misfit start cs
    else
      let n := digits.foldl (fun n c => n * base + (digitOf? base c).getD 0) 0
      .ok (.character (charOfNumber? n), rest)
  | rest => misfit start rest

/-- A reference after its ampersand. -/
def scanReference (k : Coding) (start cs : List Char) : Scan Reference :=
  match cs with
  | '#' :: 'x' :: rest => scanCharacterNumber 16 start rest
  | '#' :: rest => scanCharacterNumber 10 start rest
  | _ =>
    match scanName k start cs with
    | .error e => .error e
    | .ok (name, ';' :: rest) => .ok (.entity name, rest)
    | .ok (_, rest) => unfit start rest

/-- The entities that need no declaration. -/
def predefinedEntities : List (List Char × Char) :=
  [("lt", '<'), ("gt", '>'), ("amp", '&'), ("quot", '"'), ("apos", '\'')].map fun (name, c) =>
    (name.toList, c)

/-! ## Tags -/

/-- An attribute as it is written: its name, the text from the name on, its value as it is written
and the text from the closing quote on. -/
structure RawAttribute where
  name : List Char
  nameAt : List Char
  value : List Char
  after : List Char

/-- A start tag as it is written. -/
structure RawTag where
  name : List Char
  attributes : List RawAttribute
  isEmpty : Bool

/-- Passes over an attribute's value, up to its closing quote. -/
def skipValue (k : Coding) (start : List Char) (quote : Char) : List Char → Scan Unit
  | [] => .error (.unclosedToken, start)
  | c :: cs =>
    if c == quote then .ok ((), c :: cs)
    else if c == '<' || !isDocumentChar c then unfit start (c :: cs)
    else if c == '&' then
      match scanReference k start cs with
      | .error e => .error e
      | .ok _ => skipValue k start quote cs
    else skipValue k start quote cs

/-- An attribute with the equals sign and quotes. -/
def scanAttribute (k : Coding) (start cs : List Char) : Scan RawAttribute :=
  match scanQualifiedName k start cs with
  | .error e => .error e
  | .ok (name, rest) =>
    if !rest.head?.any fun c => isSpace c || c == '=' then unfit start rest
    else
      match skipSpace rest with
      | '=' :: rest =>
        match skipSpace rest with
        | quote :: rest =>
          if quote == '"' || quote == '\'' then
            (skipValue k start quote rest).map fun ((), after) =>
              (⟨name, cs, rest.takeWhile (· != quote), after⟩, after.drop 1)
          else misfit start (quote :: rest)
        | [] => misfit start []
      | rest => misfit start rest

/-- The rest of a start tag after its name or an attribute: the attributes before are in reverse.
The budget bounds the number of attributes. -/
def scanTagRest (k : Coding) (start : List Char) (before : List RawAttribute) :
    (budget : Nat) → List Char → Scan (List RawAttribute × Bool)
  | 0, _ => .error (.unclosedToken, start)
  | budget + 1, cs =>
    match skipSpace cs with
    | '>' :: rest => .ok ((before.reverse, false), rest)
    | '/' :: '>' :: rest => .ok ((before.reverse, true), rest)
    | '/' :: rest => misfit start rest
    | rest =>
      if cs.head?.any isSpace then
        match scanAttribute k start rest with
        | .error e => .error e
        | .ok (found, rest) => scanTagRest k start (found :: before) budget rest
      else if before.isEmpty then unfit start cs
      else misfit start cs

/-- A start tag after its angle bracket. The budget bounds the number of attributes. -/
def scanTag (k : Coding) (budget : Nat) (start cs : List Char) : Scan RawTag :=
  match scanQualifiedName k start cs with
  | .error e => .error e
  | .ok (name, rest) =>
    (scanTagRest k start [] budget rest).map fun ((attributes, isEmpty), rest) =>
      (⟨name, attributes, isEmpty⟩, rest)

/-- An end tag after its slash: the name. -/
def scanEndTag (k : Coding) (start cs : List Char) : Scan (List Char) :=
  match scanName k start cs with
  | .error e => .error e
  | .ok _ =>
    let inName := fun c => k.continuesName c || c == ':'
    let rest := cs.dropWhile inName
    match skipSpace rest with
    | '>' :: after => .ok (cs.takeWhile inName, after)
    | after => if rest.head?.any isSpace then misfit start after else unfit start after

/-! ## Comments, instructions and sections -/

/-- The rest of a comment after its opening. -/
def skipComment (start : List Char) : List Char → Scan Unit
  | [] => .error (.unclosedToken, start)
  | '-' :: '-' :: '>' :: rest => .ok ((), rest)
  | '-' :: '-' :: rest => misfit start rest
  | c :: cs => if isDocumentChar c then skipComment start cs else unfit start (c :: cs)

/-- A comment after its first hyphen. -/
def scanComment (start cs : List Char) : Scan Unit :=
  match cs with
  | '-' :: rest => skipComment start rest
  | _ => misfit start cs

/-- The rest of an instruction after its target. -/
def skipInstruction (start : List Char) : List Char → Scan Unit
  | [] => .error (.unclosedToken, start)
  | '?' :: '>' :: rest => .ok ((), rest)
  | c :: cs =>
    if isDocumentChar c then skipInstruction start cs else unfit start (c :: cs)

/-- A processing instruction after its question mark. Tells whether it is the declaration of the
document; no other target may have these letters. -/
def scanInstruction (k : Coding) (start cs : List Char) : Scan Bool :=
  match scanName k start cs with
  | .error e => .error e
  | .ok (target, rest) =>
    let isReserved := target.map Char.toLower == ['x', 'm', 'l']
    let isDeclaration := target == ['x', 'm', 'l']
    match rest with
    | c :: after =>
      if c == '?' || isSpace c then
        if isReserved && !isDeclaration then .error (.invalidToken, rest)
        else if c == '?' then
          match after with
          | '>' :: after => .ok (isDeclaration, after)
          | _ => misfit start after
        else (skipInstruction start after).map fun ((), after) => (isDeclaration, after)
      else unfit start rest
    | [] => misfit start rest

/-- The rest of a character section after its opening. What may be the first part of a longer token
at the end of the text is left. -/
def skipSection : List Char → Scan Unit
  | [] => .error (.unclosedSection, [])
  | ']' :: ']' :: '>' :: rest => .ok ((), rest)
  | c :: cs =>
    let isOpen :=
      isAtEnd (c :: cs) || ((c == '\r' || c == ']') && isAtEnd cs) ||
        (c == ']' && cs.head? == some ']' && isAtEnd (cs.drop 1))
    if isOpen then .error (.unclosedSection, c :: cs)
    else if isDocumentChar c then skipSection cs
    else unfit (c :: cs) (c :: cs)

/-- The word that opens a character section. -/
def sectionWord : List Char := "CDATA[".toList

/-- Matches the word that opens a character section, after the bracket. -/
def scanSectionOpening (k : Coding) (start cs : List Char) : Scan Unit :=
  let front := cs.take sectionWord.length
  if front.foldl (fun n c => n + k.units c) 0 < sectionWord.length then
    .error (.unclosedToken, start)
  else if front == sectionWord then .ok ((), cs.drop sectionWord.length)
  else
    let agreeing := (front.zip sectionWord).takeWhile fun (a, b) => a == b
    .error (.invalidToken, cs.drop agreeing.length)

end Assay.Markup
