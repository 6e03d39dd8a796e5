/-!
# What a source file declares and uses

The units of a program that are counted: declarations, loops, accesses to members, imports and
documentation comments. Each is kept with the line it is reported at.
-/

namespace Assay.Source

/-- The kinds of declaration. -/
inductive DeclarationKind
  | package
  | classType
  | interfaceType
  | enumType
  | recordType
  | annotationType
  | method
  | constructor
  | staticField
  | instanceField
  | parameter
  | variableDeclarator
  deriving DecidableEq, Repr

namespace DeclarationKind

/-- All kinds. -/
def all : List DeclarationKind :=
  [.package, .classType, .interfaceType, .enumType, .recordType, .annotationType, .method,
    .constructor, .staticField, .instanceField, .parameter, .variableDeclarator]

/-- The name a kind is reported under. -/
def name : DeclarationKind → String
  | .package => "package"
  | .classType => "class"
  | .interfaceType => "interface"
  | .enumType => "enum"
  | .recordType => "record"
  | .annotationType => "annotation_type"
  | .method => "method"
  | .constructor => "constructor"
  | .staticField => "static_field"
  | .instanceField => "instance_field"
  | .parameter => "parameter"
  | .variableDeclarator => "variable_declarator"

/-- The declaration introduces a type. -/
def isType : DeclarationKind → Bool
  | .classType | .interfaceType | .enumType | .recordType | .annotationType => true
  | _ => false

/-- Fields of such a type are static without saying so. -/
def makesFieldsStatic : DeclarationKind → Bool
  | .interfaceType | .annotationType => true
  | _ => false

end DeclarationKind

/-- A declaration with the simple name of the type around it, which is empty at the top of a file
and in an anonymous body. The last three fields say something of methods and constructors only. -/
structure Declaration where
  kind : DeclarationKind
  name : String
  line : Nat
  owner : String
  arity : Nat
  varargs : Bool
  isStatic : Bool
  deriving DecidableEq, Repr

/-- The kinds of loop. -/
inductive LoopKind
  | forLoop
  | forEachLoop
  | whileLoop
  | doLoop
  deriving DecidableEq, Repr

namespace LoopKind

/-- All kinds. -/
def all : List LoopKind := [.forLoop, .forEachLoop, .whileLoop, .doLoop]

/-- The name a kind is reported under. -/
def name : LoopKind → String
  | .forLoop => "for"
  | .forEachLoop => "for_each"
  | .whileLoop => "while"
  | .doLoop => "do"

end LoopKind

/-- A loop statement. -/
structure Loop where
  kind : LoopKind
  line : Nat
  deriving DecidableEq, Repr

/-- An access calls a method or reads a field. -/
inductive AccessKind
  | method
  | field
  deriving DecidableEq, Repr

namespace AccessKind

/-- Both kinds. -/
def all : List AccessKind := [.method, .field]

/-- The name a kind is reported under. -/
def name : AccessKind → String
  | .method => "method"
  | .field => "field"

end AccessKind

/-- What stands before the dot of an access. -/
inductive QualifierKind
  | none
  | name
  | this
  | super
  | expression
  deriving DecidableEq, Repr

namespace QualifierKind

/-- All kinds. -/
def all : List QualifierKind := [.none, .name, .this, .super, .expression]

/-- The name a kind is reported under. -/
def label : QualifierKind → String
  | .none => "none"
  | .name => "name"
  | .this => "this"
  | .super => "super"
  | .expression => "expression"

end QualifierKind

/-- A method call or a field access. The qualifier is the text before the dot where that is a chain
of names, `this` or `super`, and empty otherwise; a field access has no arity. -/
structure MemberAccess where
  kind : AccessKind
  name : String
  qualifier : String
  qualifierKind : QualifierKind
  line : Nat
  arity : Option Nat
  deriving DecidableEq, Repr

/-- Qualifier and name, with empty parentheses after the name of a method. -/
def MemberAccess.describe (a : MemberAccess) : String :=
  let call := match a.kind with
    | .method => "()"
    | .field => ""
  if a.qualifier.isEmpty then a.name ++ call else a.qualifier ++ "." ++ a.name ++ call

/-- An import of a name, or of all names in it. -/
structure Import where
  name : String
  isStatic : Bool
  wildcard : Bool
  deriving DecidableEq, Repr

/-- A documentation comment, by its lines. -/
structure DocComment where
  line : Nat
  endLine : Nat
  deriving DecidableEq, Repr

/-- The number of lines a documentation comment covers. -/
def DocComment.lineCount (c : DocComment) : Nat := c.endLine + 1 - c.line

end Assay.Source
