import Assay.Markup.Coding

/-!
# Declarations of a document

What the type declaration of a document provides: entities and the attributes of elements. Of two
declarations of one entity the first counts, and an attribute has at most one default. A document
may have declarations that are not read; unless it says that it stands alone, an entity that is
not known may then have been declared there.
-/

namespace Assay.Markup

/-- What a reference to a declared entity stands for. -/
inductive Entity
  | text (replacement : List Char)
  /-- A text in another file, which is not read. -/
  | external
  /-- Something that is no text. -/
  | unparsed
  deriving DecidableEq

/-- A declared attribute of an element. -/
structure AttributeRule where
  element : List Char
  name : List Char
  /-- The value is any text; otherwise it consists of tokens that white space separates. -/
  isText : Bool
  /-- The value of the attribute where it is not written. -/
  value : Option (List Char)
  deriving DecidableEq

/-- The declarations of a document. -/
structure Declarations where
  entities : List (List Char × Entity)
  rules : List AttributeRule
  /-- The document says that declarations elsewhere do not matter to it. -/
  standsAlone : Bool
  /-- Some declarations are not read. -/
  hasUnread : Bool
  /-- Declarations are still taken in: one that is not read may change the meaning of those after
  it. -/
  isReading : Bool
  deriving DecidableEq

namespace Declarations

/-- No declarations. -/
def none (standsAlone : Bool) : Declarations := ⟨[], [], standsAlone, false, true⟩

/-- An entity that is not known cannot have been declared anywhere else. -/
def isClosed (d : Declarations) : Bool := !d.hasUnread || d.standsAlone

/-- The length of all entity texts together: no entity opens inside itself, so a chain of
replacements is no longer than this. -/
def size (d : Declarations) : Nat :=
  d.entities.foldr (fun (_, entity) n =>
    match entity with
    | .text replacement => replacement.length + 1 + n
    | _ => n) 0

/-- The entity of a name. -/
def entity? (d : Declarations) (name : List Char) : Option Entity := d.entities.lookup name

/-- Takes in the declaration of an entity. -/
def addEntity (d : Declarations) (name : List Char) (entity : Entity) : Declarations :=
  if d.isReading then { d with entities := d.entities ++ [(name, entity)] } else d

/-- Takes in the declaration of an attribute. A default for an attribute that is declared already
does not count. -/
def addRule (d : Declarations) (rule : AttributeRule) : Declarations :=
  let isKnown := d.rules.any fun r => r.element == rule.element && r.name == rule.name
  if !d.isReading || (rule.value.isSome && isKnown) then d
  else { d with rules := d.rules ++ [rule] }

/-- Notes declarations that are not read. -/
def skipUnread (d : Declarations) : Declarations :=
  { d with hasUnread := true, isReading := d.standsAlone }

/-- The declared attributes of an element. -/
def rulesOf (d : Declarations) (element : List Char) : List AttributeRule :=
  d.rules.filter (·.element == element)

end Declarations

end Assay.Markup
