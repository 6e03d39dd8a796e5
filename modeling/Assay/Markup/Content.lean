import Assay.Markup.Element
import Assay.Markup.Namespace
import Assay.Markup.Value

/-!
# Elements from markup

The content of a document: elements with their attributes resolved. An attribute that is not
written may have a declared value, and names are put in their namespaces. The text of an entity is
read as content in the place of a reference to it; it has to hold whole elements, and a fault
inside it is told where the document refers to it.
-/

namespace Assay.Markup

/-- Where content is read. -/
structure Setting where
  declarations : Declarations
  coding : Coding
  /-- The coding of the document and its size in bytes. -/
  documentCoding : Coding
  documentSize : Nat
  /-- Inside the text of an entity: the text of the document after the reference that led there. -/
  left : Option (List Char)
  /-- The entities whose text is being read. -/
  opened : List (List Char)

namespace Setting

/-- The limit on unfolding while a token is read that the given text follows. -/
def limit (s : Setting) (rest : List Char) : Limit :=
  ⟨s.documentCoding, s.documentSize, s.left.getD rest⟩

/-- The text of an entity that is referred to before the given text. -/
def inside (s : Setting) (name rest : List Char) : Setting :=
  { s with coding := .utf8, left := some (s.left.getD rest), opened := name :: s.opened }

/-- The bytes that came of entities so far with those of a token, within the limit. A token of the
document itself does not count here. -/
def charge (s : Setting) (unfolded : Nat) (cs rest : List Char) : Attempt Nat :=
  if s.left.isNone then .ok unfolded
  else
    let unfolded := unfolded + s.coding.byteCount (cs.take (cs.length - rest.length))
    if (s.limit rest).allows unfolded then .ok unfolded else .error (.excessiveEntities, cs)

end Setting

/-! ## Tags -/

/-- A value as it is written is already what it stands for: it holds no reference, and no white
space other than single spaces between other characters. -/
def isSettled : (isFirst : Bool) → List Char → Bool
  | _, [] => true
  | isFirst, ' ' :: cs => !isFirst && cs.head?.any (!isSpace ·) && isSettled false cs
  | _, c :: cs => c != '&' && !isSpace c && isSettled false cs

/-- The attributes of a tag so far: their names, in reverse, the bindings with those that they
declare, the others with their values, in reverse, and the bytes that came of entities. -/
structure PartialTag where
  seen : List (List Char)
  bindings : Bindings
  attributes : List (List Char × List Char)
  unfolded : Nat

/-- Takes in the value of an attribute. -/
def PartialTag.add (t : PartialTag) (tagAt name value : List Char) : Attempt PartialTag :=
  match boundQualifier? name with
  | none => .ok { t with seen := name :: t.seen, attributes := (name, value) :: t.attributes }
  | some qualifier =>
    match t.bindings.bind qualifier value with
    | .error fault => .error (fault, tagAt)
    | .ok bindings => .ok { t with seen := name :: t.seen, bindings := bindings }

/-- Takes in the attributes as they are written. In a tag with content, a value that is not settled
counts towards the limit a second time. -/
def PartialTag.addWritten (s : Setting) (rules : List AttributeRule) (isEmpty : Bool)
    (tagAt rest : List Char) (t : PartialTag) : List RawAttribute → Attempt PartialTag
  | [] => .ok t
  | a :: more =>
    if t.seen.contains a.name then .error (.duplicateAttribute, a.nameAt)
    else
      let isText := ((rules.find? (·.name == a.name)).map (·.isText)).getD true
      let after := if s.left.isSome then none else some a.after
      let isCounted := !isEmpty && !isSettled true a.value
      let setting : ValueSetting :=
        ⟨s.declarations, s.limit rest, isText, tagAt, s.coding, after, isCounted, s.opened⟩
      match valueOf setting t.unfolded a.value with
      | .error e => .error e
      | .ok (value, unfolded) =>
        match PartialTag.add { t with unfolded := unfolded } tagAt a.name value with
        | .error e => .error e
        | .ok t => t.addWritten s rules isEmpty tagAt rest more

/-- Takes in the declared values of the attributes that are not written. -/
def PartialTag.addDeclared (tagAt : List Char) (t : PartialTag) :
    List AttributeRule → Attempt PartialTag
  | [] => .ok t
  | rule :: more =>
    match rule.value with
    | some value =>
      if t.seen.contains rule.name then t.addDeclared tagAt more
      else
        match t.add tagAt rule.name value with
        | .error e => .error e
        | .ok t => t.addDeclared tagAt more
    | none => t.addDeclared tagAt more

/-- A start tag with its names in namespaces: the bindings inside the element, its name, its
attributes and the bytes that came of entities so far. -/
def resolveTag (s : Setting) (bindings : Bindings) (unfolded : Nat) (tagAt rest : List Char)
    (raw : RawTag) : Attempt (Bindings × String × List (String × String) × Nat) :=
  let rules := s.declarations.rulesOf raw.name
  let start : PartialTag := ⟨[], bindings, [], unfolded⟩
  let here {α : Type} (result : Except Fault α) : Attempt α := result.mapError fun e => (e, tagAt)
  do
    let t ← start.addWritten s rules raw.isEmpty tagAt rest raw.attributes
    let t ← t.addDeclared tagAt rules
    let attributes ← here (t.bindings.attributeNames [] t.attributes.reverse)
    let tag ← here (t.bindings.elementName raw.name)
    return (t.bindings, tag, attributes, t.unfolded)

/-! ## Content -/

mutual

/-- An element from its angle bracket on, and the bytes that came of entities so far. The budget
bounds the number of steps. -/
def element (s : Setting) : (budget : Nat) → Bindings → (unfolded : Nat) → List Char →
    Scan (Element × Nat)
  | 0, _, _, cs => .error (.recursiveEntity, cs)
  | budget + 1, bindings, unfolded, cs =>
    match scanTag s.coding budget cs (cs.drop 1) with
    | .error e => .error e
    | .ok (raw, rest) =>
      match s.charge unfolded cs rest with
      | .error e => .error e
      | .ok unfolded =>
        match resolveTag s bindings unfolded cs rest raw with
        | .error e => .error e
        | .ok (inner, tag, attributes, unfolded) =>
          if raw.isEmpty then .ok ((.mk tag attributes [], unfolded), rest)
          else
            match content s budget inner [] unfolded rest with
            | .error e => .error e
            | .ok ((children, unfolded), rest) =>
              match rest with
              | '<' :: '/' :: nameAt =>
                match scanEndTag s.coding rest nameAt with
                | .error e => .error e
                | .ok (name, after) =>
                  match s.charge unfolded rest after with
                  | .error e => .error e
                  | .ok unfolded =>
                    if name == raw.name then
                      .ok ((.mk tag attributes children.reverse, unfolded), after)
                    else .error (.mismatchedTag, nameAt)
              | _ => .error (.noElement, rest)

/-- The elements up to an end tag or the end of the text, in reverse, on top of those found so
far. A carriage return at the end is left, since it may be the first half of a line end. -/
def content (s : Setting) : (budget : Nat) → Bindings → (found : List Element) → (unfolded : Nat) →
    List Char → Scan (List Element × Nat)
  | 0, _, _, _, cs => .error (.recursiveEntity, cs)
  | budget + 1, bindings, found, unfolded, cs =>
    match cs with
    | [] => .ok ((found, unfolded), cs)
    | '<' :: '/' :: _ => .ok ((found, unfolded), cs)
    | '<' :: '?' :: rest =>
      match scanInstruction s.coding cs rest with
      | .error e => .error e
      | .ok (isDeclaration, rest) =>
        match s.charge unfolded cs rest with
        | .error e => .error e
        | .ok unfolded =>
          if isDeclaration then .error (.misplacedDeclaration, cs)
          else content s budget bindings found unfolded rest
    | '<' :: '!' :: '-' :: rest =>
      match scanComment cs rest with
      | .error e => .error e
      | .ok (_, rest) =>
        match s.charge unfolded cs rest with
        | .error e => .error e
        | .ok unfolded => content s budget bindings found unfolded rest
    | '<' :: '!' :: '[' :: rest =>
      match scanSectionOpening s.coding cs rest with
      | .error e => .error e
      | .ok (_, rest) =>
        match skipSection rest with
        | .error e => .error e
        | .ok (_, rest) =>
          match s.charge unfolded cs rest with
          | .error e => .error e
          | .ok unfolded => content s budget bindings found unfolded rest
    | '<' :: '!' :: rest => misfit cs rest
    | '<' :: _ =>
      match element s budget bindings unfolded cs with
      | .error e => .error e
      | .ok ((e, unfolded), rest) => content s budget bindings (e :: found) unfolded rest
    | '&' :: rest =>
      match scanReference s.coding cs rest with
      | .error e => .error e
      | .ok (reference, rest) =>
        match s.charge unfolded cs rest with
        | .error e => .error e
        | .ok unfolded =>
          match reference with
          | .character none => .error (.invalidCharacterNumber, cs)
          | .character (some _) => content s budget bindings found unfolded rest
          | .entity name =>
            if (predefinedEntities.lookup name).isSome then
              content s budget bindings found (unfolded + 1) rest
            else
              match s.declarations.entity? name with
              | none =>
                if s.declarations.isClosed then .error (.undefinedEntity, cs)
                else .error (.unlistedEntity name, cs)
              | some entity =>
                if s.opened.contains name then .error (.recursiveEntity, cs)
                else
                  match entity with
                  | .unparsed => .error (.unparsedEntity, cs)
                  | .external => .error (.unlistedEntity name, cs)
                  | .text replacement =>
                    let inner := s.inside name rest
                    match content inner budget bindings found unfolded replacement with
                    | .error (.noElement, _) => .error (.unbalancedEntity, cs)
                    | .error (fault, _) => .error (fault, cs)
                    | .ok ((_, _), '<' :: '/' :: nameAt) =>
                      match scanEndTag inner.coding [] nameAt with
                      | .error (fault, _) => .error (fault, cs)
                      | .ok _ => .error (.unbalancedEntity, cs)
                    | .ok ((found, unfolded), _) =>
                      content s budget bindings found unfolded rest
    | ']' :: ']' :: '>' :: rest => .error (.invalidToken, '>' :: rest)
    | c :: rest =>
      if isAtEnd rest && c == '\r' then .ok ((found, unfolded), cs)
      else if isAtEnd rest && c == ']' then .ok ((found, unfolded), [])
      else if isDocumentChar c then
        match s.charge unfolded [c] [] with
        | .error _ => .error (.excessiveEntities, cs)
        | .ok unfolded => content s budget bindings found unfolded rest
      else unfit cs cs

end

end Assay.Markup
