import Assay.Source.Token

/-!
# Words of the Java language

The reserved words, the groups of them that steer the reading of a program, and what a token is in
their light: only an identifier that is not reserved is a name.
-/

namespace Assay.Source

/-- The reserved words; `record`, `yield`, `sealed`, `module` and `open` are not among them. -/
def keywords : List String :=
  ["abstract", "assert", "boolean", "break", "byte", "case", "catch", "char", "class", "const",
    "continue", "default", "do", "double", "else", "enum", "extends", "final", "finally", "float",
    "for", "goto", "if", "implements", "import", "instanceof", "int", "interface", "long", "native",
    "new", "package", "private", "protected", "public", "return", "short", "static", "strictfp",
    "super", "switch", "synchronized", "this", "throw", "throws", "transient", "try", "void",
    "volatile", "while", "true", "false", "null"]

/-- The types that are keywords, `void` among them. -/
def primitiveTypes : List String :=
  ["boolean", "byte", "char", "short", "int", "long", "float", "double", "void"]

/-- The modifiers of types and members. -/
def memberModifiers : List String :=
  ["public", "protected", "private", "static", "final", "abstract", "native", "synchronized",
    "transient", "volatile", "strictfp", "default", "sealed"]

/-- The modifiers of local variables, parameters and local types. -/
def localModifiers : List String := ["final", "abstract", "static", "strictfp"]

/-- What may stand between the angle brackets of type arguments, identifiers apart. -/
def typeArgumentOperators : List String := [".", ",", "?", "&", "[", "]", "@"]

/-- What confirms, after a closing angle bracket inside call arguments, that type arguments were
read. -/
def afterTypeArguments : List String := ["(", "[", "::", "\x7b", ")", ">"]

/-- The operators that can start the operand of any cast. -/
def castOperandOperators : List String := ["(", "!", "~"]

/-- The operators that can start the operand of a cast to a primitive type only. -/
def primitiveCastOperators : List String := ["-", "+", "++", "--"]

/-- The keywords that can start the operand of a cast. -/
def castOperandKeywords : List String :=
  ["this", "super", "new", "true", "false", "null", "switch"]

/-- The brackets that must balance, each with its closer. -/
def bracketPairs : List (String × String) := [("(", ")"), ("[", "]"), ("\x7b", "\x7d")]

/-- The closing brackets. -/
def closers : List String := [")", "]", "\x7d"]

namespace Token

/-- The token is an identifier that is not reserved. -/
def isName (t : Token) : Bool := t.isIdentifier && !keywords.contains t.text

/-- The token is a primitive type. -/
def isPrimitive (t : Token) : Bool := t.isIdentifier && primitiveTypes.contains t.text

/-- The token is an opening bracket, and this is its closer. -/
def closer? (t : Token) : Option String :=
  if t.isOperator then bracketPairs.lookup t.text else none

/-- The token is an opening bracket. -/
def isOpener (t : Token) : Bool := t.closer?.isSome

/-- The token is a closing bracket. -/
def isCloser (t : Token) : Bool := t.isOperator && closers.contains t.text

end Token

/-- The token list starts with a token that satisfies the test. -/
def startsWith (p : Token → Bool) (ts : List Token) : Bool := ts.head?.any p

/-- The token list starts with the given word. -/
def begins (word : String) (ts : List Token) : Bool := startsWith (·.spells word) ts

end Assay.Source
