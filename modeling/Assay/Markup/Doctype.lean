import Assay.Markup.Token
import Assay.Markup.Value

/-!
# Document type declarations

A document may declare entities, and the attributes and the content of elements, before its root
element. Every declaration has to keep to its grammar; of those of content and of notations nothing
else matters. A reference to a parameter may stand between declarations, and what it names is not
read.
-/

namespace Assay.Markup

/-- Reads what has to follow: the token if it is wanted, and a fault otherwise. -/
def expect (k : Coding) (isWanted : Token → Bool) (cs : List Char) :
    Attempt Lexeme :=
  match nextToken k cs with
  | .error e => .error e
  | .ok l => if isWanted l.token then .ok l else l.stray

/-- The end of a declaration. -/
def scanClose (k : Coding) (cs : List Char) : Attempt (List Char) :=
  (expect k (· == .close) cs).map (·.rest)

/-- The token is a word of the grammar. -/
def Token.isWord (t : Token) (word : String) : Bool := t == .name word.toList

/-- The token names an element or an attribute. -/
def Token.isAnyName : Token → Bool
  | .name _ | .qualifiedName _ => true
  | _ => false

/-- The text of a name. -/
def Token.text : Token → List Char
  | .name text | .qualifiedName text | .hashName text | .literal text => text
  | _ => []

/-- The token is a quoted text. -/
def Token.isLiteral : Token → Bool
  | .literal _ => true
  | _ => false

/-! ## External identifiers -/

/-- The character may stand in a public name. -/
def isPublicChar (c : Char) : Bool :=
  c == ' ' || c == '\r' || c == '\n' || c.isAlphanum || "-'()+,./:=?;!*#@$_%".toList.contains c

/-- A public name. -/
def scanPublicName (k : Coding) (cs : List Char) : Attempt (List Char) := do
  let l ← expect k (·.isLiteral) cs
  let front := l.token.text.takeWhile isPublicChar
  if isAtEnd (l.token.text.drop front.length) then .ok l.rest
  else .error (.invalidPublicName, l.place.drop (front.length + 1))

/-- A system name. -/
def scanSystemName (k : Coding) (cs : List Char) : Attempt (List Char) :=
  (expect k (·.isLiteral) cs).map (·.rest)

/-- An external identifier whose keyword was read: a public name needs a system name after it. -/
def scanExternal (k : Coding) (keyword : Token) (cs : List Char) : Attempt (List Char) := do
  let rest ← if keyword.isWord "PUBLIC" then scanPublicName k cs else .ok cs
  scanSystemName k rest

/-- The token is the keyword of an external identifier. -/
def Token.opensExternal (t : Token) : Bool := t.isWord "SYSTEM" || t.isWord "PUBLIC"

/-! ## Entities -/

/-- The replacement text of an entity, given the text from its closing quote on: references to
characters are replaced where it is declared, those to entities where it is used. The text so far
is in reverse. -/
def entityText (k : Coding) (after : List Char) (found : List Char) :
    (budget : Nat) → List Char → Attempt (List Char)
  | 0, _ | _, [] => .ok found.reverse
  | budget + 1, c :: cs =>
    if c == '&' then
      match scanReference k (c :: cs) cs with
      | .error (_, place) => .error (.invalidToken, place ++ after)
      | .ok (.character none, _) => .error (.invalidCharacterNumber, c :: cs ++ after)
      | .ok (.character (some c), rest) => entityText k after (c :: found) budget rest
      | .ok (.entity _, _) => entityText k after (c :: found) budget cs
    else if c == '%' then
      match scanPercent k (c :: cs) cs with
      | .ok (.parameterReference, _) => .error (.misplacedParameter, c :: cs ++ after)
      | .ok (_, place) | .error (_, place) => .error (.invalidToken, place ++ after)
    else if c == halfUnit then .error (.invalidToken, c :: cs ++ after)
    else if c == '\r' then
      entityText k after ('\n' :: found) budget (if cs.head? == some '\n' then cs.drop 1 else cs)
    else entityText k after (c :: found) budget cs

/-- The replacement text that a quoted text gives. -/
def Lexeme.replacement (k : Coding) (l : Lexeme) : Attempt (List Char) :=
  let inside := l.token.text
  entityText k (l.place.drop (inside.length + 1)) [] (inside.length + 1) inside

/-- What an entity stands for, up to the end of its declaration. Only a general entity can be
unparsed. -/
def scanEntityValue (k : Coding) (d : Declarations) (isGeneral : Bool) (cs : List Char) :
    Attempt (Entity × List Char) := do
  let l ← expect k (fun t => t.isLiteral || t.opensExternal) cs
  if l.token.isLiteral then
    let replacement ← if d.isReading then l.replacement k else .ok []
    let rest ← scanClose k l.rest
    .ok (.text replacement, rest)
  else
    let rest ← scanExternal k l.token l.rest
    let l ← expect k (fun t => t == .close || (isGeneral && t.isWord "NDATA")) rest
    if l.token == .close then .ok (.external, l.rest)
    else
      let l ← expect k (· matches .name _) l.rest
      let rest ← scanClose k l.rest
      .ok (.unparsed, rest)

/-- The declaration of an entity after its keyword. Parameters are not kept. -/
def scanEntity (k : Coding) (d : Declarations) (cs : List Char) :
    Attempt (Declarations × List Char) := do
  let l ← expect k (fun t => t == .percent || t matches .name _) cs
  if l.token == .percent then
    let l ← expect k (· matches .name _) l.rest
    let (_, rest) ← scanEntityValue k d false l.rest
    .ok (d, rest)
  else
    let (entity, rest) ← scanEntityValue k d true l.rest
    .ok (d.addEntity l.token.text entity, rest)

/-! ## Attributes -/

/-- The names of the types of an attribute other than text. -/
def tokenTypes : List (List Char) :=
  ["ID", "IDREF", "IDREFS", "ENTITY", "ENTITIES", "NMTOKEN", "NMTOKENS"].map String.toList

/-- The values that an attribute may have, after the opening bracket. The budget bounds their
number. -/
def scanChoices (k : Coding) (isWanted : Token → Bool) :
    (budget : Nat) → List Char → Attempt (List Char)
  | 0, cs => .error (.unexpectedToken, cs)
  | budget + 1, cs => do
    let l ← expect k isWanted cs
    let l ← expect k (fun t => t == .bar || t == .closeGroup none) l.rest
    if l.token == .bar then scanChoices k isWanted budget l.rest else .ok l.rest

/-- The type of an attribute: tells whether it is any text. The budget bounds the number of
choices. -/
def scanAttributeType (k : Coding) (budget : Nat) (cs : List Char) :
    Attempt (Bool × List Char) := do
  let isType := fun (t : Token) =>
    t.isWord "CDATA" || t.isWord "NOTATION" || t == .openGroup ||
      (t matches .name _) && tokenTypes.contains t.text
  let l ← expect k isType cs
  if l.token == .openGroup then
    let rest ← scanChoices k (fun t => t.isAnyName || t == .nameToken) budget l.rest
    .ok (false, rest)
  else if l.token.isWord "NOTATION" then
    let l ← expect k (· == .openGroup) l.rest
    let rest ← scanChoices k (· matches .name _) budget l.rest
    .ok (false, rest)
  else .ok (l.token.isWord "CDATA", l.rest)

/-- The value of an attribute where it is not written, if there is one. The size is that of the
whole document; what came of entities so far is counted on. -/
def scanDefault (k : Coding) (size unfolded : Nat) (d : Declarations) (isText : Bool)
    (cs : List Char) : Attempt ((Option (List Char) × Nat) × List Char) := do
  let words := ["IMPLIED", "REQUIRED", "FIXED"].map fun word => Token.hashName word.toList
  let l ← expect k (fun t => t.isLiteral || words.contains t) cs
  let isFixed := l.token == .hashName "FIXED".toList
  if !l.token.isLiteral && !isFixed then .ok ((none, unfolded), l.rest)
  else
    let l ← if isFixed then expect k (·.isLiteral) l.rest else .ok l
    if !d.isReading then .ok ((none, unfolded), l.rest)
    else
      let inside := l.token.text
      let after := l.place.drop (inside.length + 1)
      let setting : ValueSetting :=
        ⟨d, ⟨k, size, l.rest⟩, isText, l.place, k, some after, false, []⟩
      let (value, unfolded) ← valueOf setting unfolded inside
      .ok ((some value, unfolded), l.rest)

/-- The attributes of an element, up to the end of their declaration. The budget bounds their
number. -/
def scanAttributes (k : Coding) (size : Nat) (element : List Char) :
    (budget : Nat) → (unfolded : Nat) → Declarations → List Char →
      Attempt ((Declarations × Nat) × List Char)
  | 0, _, _, cs => .error (.unexpectedToken, cs)
  | budget + 1, unfolded, d, cs => do
    let l ← expect k (fun t => t == .close || t.isAnyName) cs
    if l.token == .close then .ok ((d, unfolded), l.rest)
    else
      let (isText, rest) ← scanAttributeType k budget l.rest
      let ((value, unfolded), rest) ← scanDefault k size unfolded d isText rest
      scanAttributes k size element budget unfolded
        (d.addRule ⟨element, l.token.text, isText, value⟩) rest

/-! ## Content of elements -/

/-- The rest of a group that starts with text: nothing else than names may follow it, and then the
group is repeated. The budget bounds the number of names. -/
def scanMixed (k : Coding) (hasNames : Bool) : (budget : Nat) → List Char → Attempt (List Char)
  | 0, cs => .error (.unexpectedToken, cs)
  | budget + 1, cs => do
    let isEnd := fun (t : Token) =>
      t == .closeGroup (some '*') || (!hasNames && t == .closeGroup none)
    let l ← expect k (fun t => isEnd t || t == .bar) cs
    if l.token == .bar then
      let l ← expect k (·.isAnyName) l.rest
      scanMixed k true budget l.rest
    else .ok l.rest

/-- The rest of groups of elements, given what separates the items of each open group as far as that
is known. The budget bounds the number of tokens. -/
def scanGroups (k : Coding) :
    (budget : Nat) → (wantsItem : Bool) → (opened : List (Option Token)) → List Char →
      Attempt (List Char)
  | 0, _, _, cs => .error (.unexpectedToken, cs)
  | budget + 1, wantsItem, opened, cs => do
    let isWanted := fun (t : Token) =>
      if wantsItem then t == .openGroup || t.isAnyName || t == .markedName
      else t == .comma || t == .bar || t matches .closeGroup _
    let l ← expect k isWanted cs
    if wantsItem then
      if l.token == .openGroup then scanGroups k budget true (none :: opened) l.rest
      else scanGroups k budget false opened l.rest
    else if l.token matches .closeGroup _ then
      match opened with
      | [] | [_] => .ok l.rest
      | _ :: outer => scanGroups k budget false outer l.rest
    else
      match opened with
      | some separator :: _ =>
        if separator == l.token then scanGroups k budget true opened l.rest else l.stray
      | none :: outer => scanGroups k budget true (some l.token :: outer) l.rest
      | [] => l.stray

/-- The declaration of an element after its keyword. The budget bounds the number of tokens. -/
def scanElementContent (k : Coding) (budget : Nat) (cs : List Char) : Attempt (List Char) := do
  let l ← expect k (·.isAnyName) cs
  let l ← expect k (fun t => t.isWord "EMPTY" || t.isWord "ANY" || t == .openGroup) l.rest
  if l.token != .openGroup then scanClose k l.rest
  else
    let first ← nextToken k l.rest
    let rest ←
      if first.token == .hashName "PCDATA".toList then scanMixed k false budget first.rest
      else scanGroups k budget true [none] l.rest
    scanClose k rest

/-! ## Notations -/

/-- The declaration of a notation after its keyword. A public name needs no system name after it. -/
def scanNotation (k : Coding) (cs : List Char) : Attempt (List Char) := do
  let l ← expect k (· matches .name _) cs
  let l ← expect k (·.opensExternal) l.rest
  if l.token.isWord "SYSTEM" then
    let rest ← scanSystemName k l.rest
    scanClose k rest
  else
    let rest ← scanPublicName k l.rest
    let l ← expect k (fun t => t == .close || t.isLiteral) rest
    if l.token == .close then .ok l.rest else scanClose k l.rest

/-! ## The whole declaration -/

/-- The declarations between brackets, up to the closing one. The budget bounds their number. -/
def scanSubset (k : Coding) (size : Nat) :
    (budget : Nat) → (unfolded : Nat) → Declarations → List Char →
      Attempt ((Declarations × Nat) × List Char)
  | 0, _, _, cs => .error (.unexpectedToken, cs)
  | budget + 1, unfolded, d, cs => do
    let l ← nextToken k cs
    match l.token with
    | .closeBracket => .ok ((d, unfolded), l.rest)
    | .comment | .instruction => scanSubset k size budget unfolded d l.rest
    | .parameterReference => scanSubset k size budget unfolded d.skipUnread l.rest
    | .declaration keyword =>
      if keyword == "ENTITY".toList then
        let (d, rest) ← scanEntity k d l.rest
        scanSubset k size budget unfolded d rest
      else if keyword == "ATTLIST".toList then
        let element ← expect k (·.isAnyName) l.rest
        let ((d, unfolded), rest) ←
          scanAttributes k size element.token.text budget unfolded d element.rest
        scanSubset k size budget unfolded d rest
      else if keyword == "ELEMENT".toList then
        let rest ← scanElementContent k budget l.rest
        scanSubset k size budget unfolded d rest
      else if keyword == "NOTATION".toList then
        let rest ← scanNotation k l.rest
        scanSubset k size budget unfolded d rest
      else l.stray
    | _ => l.stray

/-- A document type declaration after its keyword: the declarations, and the bytes that came of
entities. The budget bounds the number of tokens. -/
def scanDoctype (k : Coding) (size budget : Nat) (d : Declarations) (cs : List Char) :
    Attempt ((Declarations × Nat) × List Char) := do
  let isHeaderEnd := fun (t : Token) => t == .openBracket || t == .close
  let l ← expect k (·.isAnyName) cs
  let l ← expect k (fun t => isHeaderEnd t || t.opensExternal) l.rest
  let (d, l) ←
    if l.token.opensExternal then do
      let rest ← scanExternal k l.token l.rest
      let l ← expect k isHeaderEnd rest
      .ok ({ d with hasUnread := true }, l)
    else .ok (d, l)
  if l.token == .close then .ok ((d, 0), l.rest)
  else
    let (found, rest) ← scanSubset k size budget 0 d l.rest
    let rest ← scanClose k rest
    .ok (found, rest)

end Assay.Markup
