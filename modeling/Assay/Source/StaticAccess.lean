import Assay.Source.CompilationUnit
import Assay.Text.Case

/-!
# Static accesses

Tells the accesses to static members from the others, as far as one file shows it. What a file
declares and imports decides; the only guess is that a capitalised name in mixed case which is no
value is a type. An access that stays open comes with the reason.
-/

namespace Assay.Source

/-- Why an access stays open. -/
inductive Unresolved
  | inheritedMember
  | nestedType
  | undeclaredQualifier (qualifier : String)
  | undeclaredMethod
  | mixedOverloads
  | undeclaredField
  | mixedFields
  deriving DecidableEq, Repr

/-- The wording of a reason. -/
def Unresolved.message : Unresolved → String
  | .inheritedMember => "member inherited from the superclass"
  | .nestedType => "nested type reference"
  | .undeclaredQualifier qualifier =>
    "qualifier " ++ Text.quoted qualifier ++ " is not declared here"
  | .undeclaredMethod => "method is not declared in this compilation unit"
  | .mixedOverloads => "static and instance overloads match"
  | .undeclaredField => "field is not declared in this compilation unit"
  | .mixedFields => "field name declared both static and non-static"

/-- The report of an access that stays open; line zero is none. -/
def unresolvedText (reason name : String) (line : Int) : String :=
  let place := if line == 0 then "" else " (line " ++ toString line ++ ")"
  "cannot resolve " ++ Text.quoted name ++ place ++ ": " ++ reason

/-- What an access goes to. -/
inductive Resolution
  | static
  | nonStatic
  | unknown (reason : Unresolved)
  deriving DecidableEq, Repr

namespace Resolution

/-- The name a resolution is reported under. -/
def name : Resolution → String
  | .static => "static"
  | .nonStatic => "non_static"
  | .unknown _ => "unknown"

/-- The access goes to a static member. -/
def isStatic : Resolution → Bool
  | .static => true
  | _ => false

/-- The report of an access that stays open. -/
def failure? (r : Resolution) (a : MemberAccess) : Option String :=
  match r with
  | .unknown reason => some (unresolvedText reason.message a.describe a.line)
  | _ => none

end Resolution

/-- The name is written like a type: its first character is upper case and some character is lower
case. -/
def looksLikeType (name : String) : Bool :=
  name.toList.head?.any Text.isUppercase && name.toList.any Text.isLowercase

/-- The names that a file makes known. -/
structure KnownNames where
  values : List String
  types : List String
  /-- The static members that are imported by name. -/
  staticImports : List String
  methods : List Declaration
  fields : List (String × Bool)

/-- The names that a file declares and imports. -/
def CompilationUnit.knownNames (u : CompilationUnit) : KnownNames :=
  let named := u.imports.filter (!·.wildcard)
  { values := u.valueNames
    types := u.typeNames ++ (named.filter (!·.isStatic)).map (·.simpleName)
    staticImports := (named.filter (·.isStatic)).map (·.simpleName)
    methods := u.declarationsOf [.method]
    fields := u.fields }

/-- What a chain of names stands for. -/
inductive Meaning
  | type
  | value
  | unknown
  deriving DecidableEq, Repr

namespace KnownNames

/-- The name is a type: a known one, or one that looks like a type and is no value. -/
def isType (k : KnownNames) (name : String) : Bool :=
  k.types.contains name || (!k.values.contains name && looksLikeType name)

/-- What the first name of a chain stands for. -/
def headMeaning (k : KnownNames) (name : String) : Meaning :=
  if k.values.contains name then .value else if k.isType name then .type else .unknown

/-- What a chain stands for after one more name. What follows a value is a value; after a type
comes a nested type or a field, which is a value; a package ends at the first type. -/
def extendMeaning (k : KnownNames) (before : Meaning) (name : String) : Meaning :=
  match before with
  | .value => .value
  | .type => if looksLikeType name || k.types.contains name then .type else .value
  | .unknown => if k.isType name then .type else .unknown

/-- What a chain of names stands for. -/
def chainMeaning (k : KnownNames) : List String → Meaning
  | [] => .unknown
  | first :: more => more.foldl k.extendMeaning (k.headMeaning first)

/-- A call with this number of arguments, or with none recorded, can go to the method. -/
def accepts (arity : Option Nat) (m : Declaration) : Bool :=
  match arity with
  -- the last parameter of a method of many takes any number, also none
  | some n => m.arity == n || (m.varargs && m.arity ≤ n + 1)
  | none => m.varargs && m.arity == 0

/-- A call of a method that may be declared in the file. -/
def resolveMethod (k : KnownNames) (a : MemberAccess) : Resolution :=
  let candidates := k.methods.filter fun m => m.name == a.name && accepts a.arity m
  -- no method of the file fits: one that was imported may
  if candidates.isEmpty then
    if a.qualifierKind == .none && k.staticImports.contains a.name then .static
    else .unknown .undeclaredMethod
  else if candidates.all (·.isStatic) then .static
  else if candidates.all (!·.isStatic) then .nonStatic
  else .unknown .mixedOverloads

/-- A reading of a field that may be declared in the file. -/
def resolveField (k : KnownNames) (a : MemberAccess) : Resolution :=
  let flags := k.fields.filterMap fun (field, isStatic) =>
    if field == a.name then some isStatic else none
  -- the name may be declared several times, in several types
  if flags.isEmpty then .unknown .undeclaredField
  else if flags.all id then .static
  else if flags.all not then .nonStatic
  else .unknown .mixedFields

/-- An access whose qualifier is a chain of names. -/
def resolveQualified (k : KnownNames) (a : MemberAccess) : Resolution :=
  let chain := (Text.splitAt '.' a.qualifier.toList).map String.ofList
  match k.chainMeaning chain with
  -- a type behind a type is nested in it, and no member
  | .type => if a.kind == .field && k.isType a.name then .unknown .nestedType else .static
  | .value => .nonStatic
  | .unknown => .unknown (.undeclaredQualifier a.qualifier)

/-- What an access goes to. -/
def resolve (k : KnownNames) (a : MemberAccess) : Resolution :=
  match a.qualifierKind with
  | .expression => .nonStatic
  | .super => .unknown .inheritedMember
  | .none | .this =>
    match a.kind with
    | .method => k.resolveMethod a
    | .field => k.resolveField a
  | .name => k.resolveQualified a

end KnownNames

namespace CompilationUnit

/-- What an access goes to, by the names of the file. -/
def resolve (u : CompilationUnit) (a : MemberAccess) : Resolution := u.knownNames.resolve a

/-- The accesses of a file with what they go to. -/
def resolutions (u : CompilationUnit) : List (MemberAccess × Resolution) :=
  let known := u.knownNames
  u.accesses.map fun a => (a, known.resolve a)

/-- The number of accesses to static members. -/
def countStaticAccesses (u : CompilationUnit) : Nat := u.resolutions.countP (·.2.isStatic)

/-- The reports of the accesses that stay open. -/
def unresolvedReports (u : CompilationUnit) : List String :=
  u.resolutions.filterMap fun (a, r) => r.failure? a

end CompilationUnit

end Assay.Source
