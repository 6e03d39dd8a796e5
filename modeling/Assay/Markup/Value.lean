import Assay.Markup.Declarations
import Assay.Markup.Scan

/-!
# Values of attributes

In a value references are replaced and white space becomes spaces; in a value of tokens only
single spaces between them are left. The text of an entity is read in the place of a reference to
it. How much text a document may unfold in this way is limited.
-/

namespace Assay.Markup

/-! ## The limit on unfolding -/

/-- The number of bytes that a document may come to in any case. -/
def unfoldingThreshold : Nat := 8 * 1024 * 1024

/-- The number of times its own size that a document beyond the threshold may come to. -/
def unfoldingFactor : Nat := 100

/-- What limits the unfolding of a document: its coding, its size in bytes and the text left of it
after the token that is being read. -/
structure Limit where
  coding : Coding
  size : Nat
  left : List Char

/-- The document may come to so many bytes beyond those of its own that were read. The text left is
only measured near the threshold. -/
def Limit.allows (limit : Limit) (unfolded : Nat) : Bool :=
  if limit.size + unfolded < unfoldingThreshold then true
  else
    let own := limit.size - limit.coding.byteCount limit.left
    own + unfolded < unfoldingThreshold || own + unfolded ≤ unfoldingFactor * own

/-! ## Values -/

/-- Where a value is read. -/
structure ValueSetting where
  declarations : Declarations
  limit : Limit
  /-- The value is any text, not a list of tokens. -/
  isText : Bool
  /-- The text at the start of the token that the value belongs to. -/
  tokenAt : List Char
  coding : Coding
  /-- The text after the value, unless it is inside an entity. -/
  after : Option (List Char)
  /-- The bytes of the value count towards the limit. -/
  isCounted : Bool
  /-- The entities whose text is being read. -/
  opened : List (List Char)

namespace ValueSetting

/-- The text where a fault is told: inside an entity, the start of the token. -/
def place (s : ValueSetting) (cs : List Char) : List Char :=
  match s.after with
  | some after => cs ++ after
  | none => s.tokenAt

/-- Inside the text of an entity. -/
def inside (s : ValueSetting) (name : List Char) : ValueSetting :=
  { s with coding := .utf8, after := none, isCounted := true, opened := name :: s.opened }

/-- The value so far, in reverse, with a space; between tokens one is enough. -/
def addSpace (s : ValueSetting) (value : List Char) : List Char :=
  if !s.isText && (value.isEmpty || value.head? == some ' ') then value else ' ' :: value

/-- The bytes that count so far with those of some more text, within the limit. -/
def charge (s : ValueSetting) (unfolded : Nat) (more : List Char) :
    Attempt Nat :=
  if !s.isCounted then .ok unfolded
  else
    let unfolded := unfolded + s.coding.byteCount more
    if s.limit.allows unfolded then .ok unfolded else .error (.excessiveEntities, s.tokenAt)

end ValueSetting

/-- A value being read: its characters in reverse, and the bytes that count so far. -/
abbrev PartialValue := List Char × Nat

/-- Reads the rest of a value. The budget bounds the number of steps, and with it the nesting of
entities. -/
def readValue :
    (budget : Nat) → ValueSetting → PartialValue → List Char →
      Attempt PartialValue
  | 0, s, _, _ => .error (.recursiveEntity, s.tokenAt)
  | _, _, found, [] => .ok found
  | budget + 1, s, (value, unfolded), c :: cs =>
    if c == '<' || c == halfUnit then .error (.invalidToken, s.place (c :: cs))
    else if c == '&' then
      match scanReference s.coding (c :: cs) cs with
      | .error (.unclosedToken, _) => .error (.invalidToken, s.place (c :: cs))
      | .error (_, place) => .error (.invalidToken, s.place place)
      | .ok (reference, rest) =>
        match s.charge unfolded ((c :: cs).take (cs.length + 1 - rest.length)) with
        | .error e => .error e
        | .ok unfolded =>
          match reference with
          | .character none => .error (.invalidCharacterNumber, s.place (c :: cs))
          | .character (some ' ') => readValue budget s (s.addSpace value, unfolded) rest
          | .character (some c) => readValue budget s (c :: value, unfolded) rest
          | .entity name =>
            match predefinedEntities.lookup name with
            | some c => readValue budget s (c :: value, unfolded) rest
            | none =>
              match s.declarations.entity? name with
              | none =>
                if s.declarations.isClosed then .error (.undefinedEntity, s.tokenAt)
                else readValue budget s (value, unfolded) rest
              | some entity =>
                if s.opened.contains name then .error (.recursiveEntity, s.place (c :: cs))
                else
                  match entity with
                  | .unparsed => .error (.unparsedEntity, s.place (c :: cs))
                  | .external => .error (.externalEntityInValue, s.place (c :: cs))
                  | .text replacement =>
                    match readValue budget (s.inside name) (value, unfolded) replacement with
                    | .error e => .error e
                    | .ok found => readValue budget s found rest
    else
      match s.charge unfolded [c] with
      | .error e => .error e
      | .ok unfolded =>
        if c == '\r' && s.after.isSome && cs.head? == some '\n' then
          readValue budget s (value, unfolded) cs
        else if isSpace c then readValue budget s (s.addSpace value, unfolded) cs
        else readValue budget s (c :: value, unfolded) cs

/-- A value as it is written, read as a whole, and the bytes that count so far. -/
def valueOf (s : ValueSetting) (unfolded : Nat) (written : List Char) :
    Attempt (List Char × Nat) :=
  (readValue (written.length + s.declarations.size + 1) s ([], unfolded) written).map
    fun (value, unfolded) =>
      let value := if !s.isText && value.head? == some ' ' then value.drop 1 else value
      (value.reverse, unfolded)

end Assay.Markup
