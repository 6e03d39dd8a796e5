import Assay.Markup.Coding

/-!
# Faults of an XML document

What is wrong with a document and where. Scanners work on what is left of the text, so a fault comes
with the text left where it arose; its line and column are counted from that.
-/

namespace Assay.Markup

/-- What is wrong with a document. -/
inductive Fault
  | noElement
  | unexpectedToken
  | invalidToken
  | unclosedToken
  | partialCharacter
  | mismatchedTag
  | duplicateAttribute
  | junkAfterRoot
  | undefinedEntity
  | unlistedEntity (name : List Char)
  | recursiveEntity
  | unbalancedEntity
  | unparsedEntity
  | externalEntityInValue
  | excessiveEntities
  | misplacedParameter
  | invalidPublicName
  | invalidCharacterNumber
  | misplacedDeclaration
  | malformedDeclaration
  | unsuitableEncoding
  | contradictedEncoding
  | unclosedSection
  | unboundQualifier
  | undeclaredQualifier
  | reservedQualifier
  | reservedDeclarationQualifier
  | reservedNamespace
  deriving DecidableEq, Repr

/-- The number of bytes of a reference that are shown. -/
def shownReferenceSize : Nat := 100

/-- The text of a reference to an entity, cut short if it is long. -/
def shownReference (name : List Char) : String :=
  let bytes := (String.ofList ('&' :: name ++ [';'])).toUTF8.toList
  String.ofList (Text.decodeUtf8Lossy (bytes.take shownReferenceSize))

/-- The wording of a fault. -/
def Fault.message : Fault → String
  | .noElement => "no element found"
  | .unexpectedToken => "syntax error"
  | .invalidToken => "not well-formed (invalid token)"
  | .unclosedToken => "unclosed token"
  | .partialCharacter => "partial character"
  | .mismatchedTag => "mismatched tag"
  | .duplicateAttribute => "duplicate attribute"
  | .junkAfterRoot => "junk after document element"
  | .undefinedEntity => "undefined entity"
  | .unlistedEntity name => "undefined entity " ++ shownReference name
  | .recursiveEntity => "recursive entity reference"
  | .unbalancedEntity => "asynchronous entity"
  | .unparsedEntity => "reference to binary entity"
  | .externalEntityInValue => "reference to external entity in attribute"
  | .excessiveEntities =>
    "limit on input amplification factor (from DTD and entities) breached"
  | .misplacedParameter => "illegal parameter entity reference"
  | .invalidPublicName => "illegal character(s) in public id"
  | .invalidCharacterNumber => "reference to invalid character number"
  | .misplacedDeclaration => "XML or text declaration not at start of entity"
  | .malformedDeclaration => "XML declaration not well-formed"
  | .unsuitableEncoding => "unknown encoding"
  | .contradictedEncoding => "encoding specified in XML declaration is incorrect"
  | .unclosedSection => "unclosed CDATA section"
  | .unboundQualifier => "unbound prefix"
  | .undeclaredQualifier => "must not undeclare prefix"
  | .reservedQualifier =>
    "reserved prefix (xml) must not be undeclared or bound to another namespace name"
  | .reservedDeclarationQualifier => "reserved prefix (xmlns) must not be declared or undeclared"
  | .reservedNamespace => "prefix must not be bound to one of the reserved namespace names"

/-- A fault with its line, counted from one, and its column, counted from zero. -/
structure ReadError where
  fault : Fault
  line : Nat
  column : Nat
  deriving DecidableEq, Repr

/-- The wording of a fault with its place. -/
def ReadError.message (e : ReadError) : String :=
  e.fault.message ++ ": line " ++ toString e.line ++ ", column " ++ toString e.column

/-- Line and column after some text: a line ends at a line feed, at a carriage return and at both
together. Half a unit takes up no column. -/
def positionAfter (line column : Nat) : List Char → Nat × Nat
  | [] => (line, column)
  | '\r' :: '\n' :: cs => positionAfter (line + 1) 0 cs
  | '\r' :: cs => positionAfter (line + 1) 0 cs
  | '\n' :: cs => positionAfter (line + 1) 0 cs
  | c :: cs => positionAfter line (if c == halfUnit then column else column + 1) cs

/-- Why a document cannot be read: something in it is wrong, or its character set cannot be used. -/
inductive Refusal
  | illFormed (error : ReadError)
  | unusable (fault : Text.CharacterSetFault)
  deriving DecidableEq, Repr

/-- The error for a fault that arose where `rest` was left of the text. -/
def errorAt (text : List Char) (fault : Fault) (rest : List Char) : ReadError :=
  let (line, column) := positionAfter 1 0 (text.take (text.length - rest.length))
  ⟨fault, line, column⟩

end Assay.Markup
