/-!
# Elements

The elements of an XML document with their attributes, in document order; text is left out. A name
in a namespace is written with the namespace in braces before it.
-/

namespace Assay.Markup

/-- An element: its name, its attributes and the elements inside it. -/
inductive Element
  | mk (tag : String) (attributes : List (String × String)) (children : List Element)

namespace Element

/-- The name of an element. -/
def tag : Element → String
  | mk tag _ _ => tag

/-- The attributes of an element. -/
def attributes : Element → List (String × String)
  | mk _ attributes _ => attributes

/-- The elements directly inside an element. -/
def children : Element → List Element
  | mk _ _ children => children

/-- The value of an attribute. -/
def attribute? (e : Element) (name : String) : Option String := e.attributes.lookup name

mutual

/-- The elements of the given name at any depth, the element itself among them, in document
order. -/
def named (tag : String) : Element → List Element
  | mk own attributes children =>
    if own == tag then mk own attributes children :: namedIn tag children else namedIn tag children

/-- The elements of the given name in a list of elements. -/
def namedIn (tag : String) : List Element → List Element
  | [] => []
  | e :: es => named tag e ++ namedIn tag es

end

end Element

end Assay.Markup
