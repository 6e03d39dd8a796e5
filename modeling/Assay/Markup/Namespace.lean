import Assay.Markup.Fault

/-!
# Names in namespaces

An attribute `xmlns` or `xmlns:q` binds the names without a qualifier, or those with the qualifier
`q`, to a namespace for the element it stands on and those inside. Two qualifiers and two namespaces
are reserved, and so is the brace that divides a namespace from a name where both are written
together.
-/

namespace Assay.Markup

/-- The namespace of the qualifier `xml`. -/
def markupNamespace : List Char := "http://www.w3.org/XML/1998/namespace".toList

/-- The namespace of the declarations of namespaces. -/
def declarationNamespace : List Char := "http://www.w3.org/2000/xmlns/".toList

/-- Stands between a namespace and a name. -/
def namespaceEnd : Char := '\x7d'

/-- The namespaces in scope by qualifier, the innermost first; the empty qualifier is for names
without one, and an empty namespace is none. -/
abbrev Bindings := List (List Char × List Char)

/-- The namespace that is always in scope. -/
def initialBindings : Bindings := [("xml".toList, markupNamespace)]

/-- A name divided at its colon; the qualifier is empty if there is none. -/
def divideName (name : List Char) : List Char × List Char :=
  match name.dropWhile (· != ':') with
  | [] => ([], name)
  | _ :: rest => (name.takeWhile (· != ':'), rest)

/-- The qualifier that an attribute binds, if it declares a namespace. -/
def boundQualifier? (name : List Char) : Option (List Char) :=
  let (qualifier, rest) := divideName name
  if qualifier.isEmpty then if rest == "xmlns".toList then some [] else none
  else if qualifier == "xmlns".toList then some rest
  else none

/-- The bindings with one more. -/
def Bindings.bind (bindings : Bindings) (qualifier uri : List Char) : Except Fault Bindings :=
  let isMarkup := uri == markupNamespace
  if uri.isEmpty && !qualifier.isEmpty then .error .undeclaredQualifier
  else if qualifier == "xmlns".toList then .error .reservedDeclarationQualifier
  else if uri.contains namespaceEnd then .error .unexpectedToken
  else if qualifier == "xml".toList && !isMarkup then .error .reservedQualifier
  else if qualifier != "xml".toList && isMarkup then .error .reservedNamespace
  else if uri == declarationNamespace then .error .reservedNamespace
  else .ok ((qualifier, uri) :: bindings)

/-- A name with its namespace in braces; the first of the pair is empty if there is none. -/
def writtenName (uri name : List Char) : String :=
  if uri.isEmpty then String.ofList name else String.ofList ('\x7b' :: uri ++ namespaceEnd :: name)

/-- The name of an element in the namespaces in scope. -/
def Bindings.elementName (bindings : Bindings) (name : List Char) : Except Fault String :=
  let (qualifier, rest) := divideName name
  match bindings.lookup qualifier with
  | some uri => .ok (writtenName uri rest)
  | none => if qualifier.isEmpty then .ok (String.ofList name) else .error .unboundQualifier

/-- Attributes with their names in the namespaces in scope. A name without a qualifier is in none,
and two names with qualifiers must not come to be the same. -/
def Bindings.attributeNames (bindings : Bindings) (seen : List String) :
    List (List Char × List Char) → Except Fault (List (String × String))
  | [] => .ok []
  | (name, value) :: more =>
    let (qualifier, rest) := divideName name
    if qualifier.isEmpty then
      (bindings.attributeNames seen more).map ((String.ofList name, String.ofList value) :: ·)
    else
      match bindings.lookup qualifier with
      | none => .error .unboundQualifier
      | some uri =>
        let written := writtenName uri rest
        if seen.contains written then .error .duplicateAttribute
        else
          (bindings.attributeNames (written :: seen) more).map ((written, String.ofList value) :: ·)

end Assay.Markup
