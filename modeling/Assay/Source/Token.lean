import Assay.Text.Quoted

/-!
# Tokens of a Java source

A token is a piece of source text with its kind and the lines it covers. The structure of a program
is read off the identifiers and operators alone, so `Token.spells` is never true of a literal or a
comment, whatever its text.
-/

namespace Assay.Source

/-- The lexical classes of a Java source, white space apart. -/
inductive TokenKind
  | docComment
  | blockComment
  | lineComment
  | string
  | character
  | number
  | identifier
  | operator
  deriving DecidableEq, Repr

/-- The name a token kind is reported under. -/
def TokenKind.name : TokenKind → String
  | .docComment => "doc_comment"
  | .blockComment => "block_comment"
  | .lineComment => "line_comment"
  | .string => "string"
  | .character => "char"
  | .number => "number"
  | .identifier => "identifier"
  | .operator => "operator"

/-- Comments carry no structure. -/
def TokenKind.isComment : TokenKind → Bool
  | .docComment | .blockComment | .lineComment => true
  | _ => false

/-- Literals stand for a value. -/
def TokenKind.isLiteral : TokenKind → Bool
  | .string | .character | .number => true
  | _ => false

/-- A piece of source text with its kind and the lines, counted from one, of its first and last
character. -/
structure Token where
  kind : TokenKind
  text : String
  line : Nat
  endLine : Nat
  deriving DecidableEq, Repr

namespace Token

/-- The token is a comment. -/
def isComment (t : Token) : Bool := t.kind.isComment

/-- The token is a literal. -/
def isLiteral (t : Token) : Bool := t.kind.isLiteral

/-- The number of lines the token covers. -/
def lineCount (t : Token) : Nat := t.endLine + 1 - t.line

/-- The token is an identifier or keyword. -/
def isIdentifier (t : Token) : Bool := t.kind == .identifier

/-- The token is an operator or separator. -/
def isOperator (t : Token) : Bool := t.kind == .operator

/-- The token is the given keyword, operator or separator. -/
def spells (t : Token) (word : String) : Bool :=
  (t.isIdentifier || t.isOperator) && t.text == word

/-- The token is one of the given keywords, operators or separators. -/
def spellsAny (t : Token) (words : List String) : Bool :=
  (t.isIdentifier || t.isOperator) && words.contains t.text

/-- Kind, quoted text and first line. -/
def describe (t : Token) : String :=
  "Token(" ++ t.kind.name ++ ", " ++ Text.quoted t.text ++ ", L" ++ toString t.line ++ ")"

end Token

end Assay.Source
