import Assay.Markup.Content
import Assay.Markup.Doctype

/-!
# Documents

An XML document is decoded as its first bytes and its declaration say, UTF-8 if they say nothing,
and read as a prolog, a root element and an epilog.
-/

namespace Assay.Markup

/-! ## The declaration -/

/-- A name and a quoted value in the declaration of a document, with the text from each on. -/
structure DeclaredValue where
  nameAt : List Char
  name : List Char
  valueAt : List Char
  value : List Char

/-- The character may stand in a declared value. -/
def isDeclaredChar (c : Char) : Bool := c.isAlphanum || c == '.' || c == '-' || c == '_'

/-- The next declared value, if there is one. Fails with the text that does not fit. -/
def scanDeclared (cs : List Char) : Except (List Char) (Option DeclaredValue × List Char) :=
  let nameAt := skipSpace cs
  if nameAt.isEmpty then .ok (none, cs)
  else if nameAt.length == cs.length then .error cs
  else
    let name := nameAt.takeWhile fun c => c.toNat < 0x80 && c != '=' && !isSpace c
    match skipSpace (nameAt.drop name.length) with
    | '=' :: rest =>
      if name.isEmpty then .error nameAt
      else
        match skipSpace rest with
        | quote :: valueAt =>
          if quote == '"' || quote == '\'' then
            match valueAt.dropWhile isDeclaredChar with
            | c :: after =>
              if c == quote then
                .ok (some ⟨nameAt, name, valueAt, valueAt.takeWhile isDeclaredChar⟩, after)
              else .error (c :: after)
            | [] => .error []
          else .error (quote :: valueAt)
        | [] => .error []
    | rest => .error rest

/-- What a document declares of itself: its coding, with the text from its name on, and whether it
stands alone. -/
structure DocumentDeclaration where
  coding : Option (List Char × List Char)
  standsAlone : Bool

/-- The declaration of a document from what stands inside it: a version, then a coding if it likes,
then whether the document stands alone if it likes. Fails with the text that does not fit. -/
def readDeclaration (cs : List Char) : Except (List Char) DocumentDeclaration := do
  let (version, rest) ← scanDeclared cs
  match version with
  | none => throw rest
  | some version =>
    if version.name != "version".toList then throw version.nameAt
    let (second, rest) ← scanDeclared rest
    match second with
    | none => return ⟨none, false⟩
    | some second =>
      let isCoding := second.name == "encoding".toList
      if isCoding && !second.value.head?.any Char.isAlpha then throw second.valueAt
      let coding := if isCoding then some (second.value, second.valueAt) else none
      let (third, rest) ← if isCoding then scanDeclared rest else pure (some second, rest)
      match third with
      | none => return ⟨coding, false⟩
      | some third =>
        if third.name != "standalone".toList then throw third.nameAt
        if third.value != "yes".toList && third.value != "no".toList then throw third.valueAt
        if !(skipSpace rest).isEmpty then throw (skipSpace rest)
        return ⟨coding, third.value == "yes".toList⟩

/-- The inside of the declaration at the start of a document, and what follows it. -/
def declarationParts? (k : Coding) (cs : List Char) : Option (List Char × List Char) :=
  match cs with
  | '<' :: '?' :: rest =>
    match scanInstruction k cs rest with
    | .ok (true, after) =>
      let inside := rest.drop 3
      some (inside.take (inside.length - after.length - 2), after)
    | _ => none
  | _ => none

/-! ## Codings of a document -/

/-- The coding that the first bytes of a document show, and whether a byte order mark is among them;
none if there are too few of them to tell. -/
def firstCoding? : List UInt8 → Option (Coding × Bool)
  | [] => some (.utf8, false)
  | [b] => if [0x00, 0x3C, 0xEF, 0xFE, 0xFF].contains b then none else some (.utf8, false)
  | 0xFE :: 0xFF :: _ => some (.utf16 false, true)
  | 0xFF :: 0xFE :: _ => some (.utf16 true, true)
  | [0xEF, 0xBB] => none
  | 0xEF :: 0xBB :: 0xBF :: _ => some (.utf8, true)
  | 0x00 :: _ => some (.utf16 false, false)
  | _ :: 0x00 :: _ => some (.utf16 true, false)
  | _ => some (.utf8, false)

/-- The coding of a registered name, in any letter case, for a document whose first bytes show the
given one. -/
def registeredCoding? (first : Coding) (name : List Char) : Option Coding :=
  match String.ofList (name.map Char.toLower) with
  | "utf-8" => some .utf8
  | "us-ascii" => some .ascii
  | "iso-8859-1" => some .latin1
  | "utf-16" => some (if first.unitSize == 2 then first else .utf16 false)
  | "utf-16be" => some (.utf16 false)
  | "utf-16le" => some (.utf16 true)
  | _ => none

/-- Why a declared coding is not taken. -/
inductive CodingFault
  /-- It is a fault where its name stands. -/
  | misdeclared (fault : Fault)
  | unusable (fault : Text.CharacterSetFault)

/-- The coding of a document that declares one by name: it has to agree with the first bytes on the
size and the order of its units. -/
def declaredCoding (first : Coding) (name : List Char) : Except CodingFault Coding :=
  match registeredCoding? first name with
  | some coding =>
    if coding.unitSize != first.unitSize || (coding.unitSize == 2 && coding != first) then
      .error (.misdeclared .contradictedEncoding)
    else .ok coding
  | none =>
    match Text.codePageNamed (String.ofList name) with
    | .ok (some page) => .ok (.page page)
    | .ok none => .error (.misdeclared .unsuitableEncoding)
    | .error fault => .error (.unusable fault)

/-! ## Prolog and epilog -/

/-- Comments, instructions and a document type declaration, then the root element. The budget bounds
the number of tokens, and the size is that of the document in bytes. -/
def prolog (k : Coding) (size : Nat) :
    (budget : Nat) → (isDeclared : Bool) → (unfolded : Nat) → Declarations → List Char →
      Scan Element
  | 0, _, _, _, cs => .error (.unexpectedToken, cs)
  | budget + 1, isDeclared, unfolded, d, cs =>
    match nextToken k cs with
    | .error e => .error e
    | .ok l =>
      match l.token with
      | .comment | .instruction => prolog k size budget isDeclared unfolded d l.rest
      | .declaration keyword =>
        if isDeclared || keyword != "DOCTYPE".toList then l.stray
        else
          match scanDoctype k size budget d l.rest with
          | .error e => .error e
          | .ok ((d, unfolded), rest) => prolog k size budget true unfolded d rest
      | .openElement =>
        let setting : Setting := ⟨d, k, k, size, none, []⟩
        let steps := 2 * l.place.length + d.size + 2
        (element setting steps initialBindings unfolded l.place).map fun ((root, _), rest) =>
          (root, rest)
      | _ => l.stray

/-- Nothing but comments and instructions follows the root element. The budget bounds the number of
tokens. -/
def epilog (k : Coding) : (budget : Nat) → List Char → Attempt Unit
  | 0, cs => .error (.junkAfterRoot, cs)
  | budget + 1, cs =>
    match skipSpace cs with
    | [] => .ok ()
    | _ =>
      match nextToken k cs with
      | .error e => .error e
      | .ok l =>
        if l.token == .comment || l.token == .instruction then epilog k budget l.rest
        else .error (.junkAfterRoot, l.place)

/-- A document of the given size from the end of its declaration on. -/
def afterDeclaration (k : Coding) (size : Nat) (standsAlone : Bool) (cs : List Char) :
    Attempt Element :=
  match prolog k size (cs.length + 1) false 0 (.none standsAlone) cs with
  | .error e => .error e
  | .ok (root, rest) =>
    match epilog k (rest.length + 1) rest with
    | .error e => .error e
    | .ok _ => .ok root

/-- The root element of a document. A byte order mark is passed over but takes up columns. -/
def read (bytes : List UInt8) : Except Refusal Element :=
  match firstCoding? bytes with
  | none => .error (.illFormed (errorAt [] .unclosedToken []))
  | some (first, hasMark) =>
    let text := first.decode bytes
    let body := if hasMark then text.drop 1 else text
    let told (text : List Char) (fault : Fault) (rest : List Char) : Refusal :=
      .illFormed (errorAt text fault rest)
    let finish (k : Coding) (text rest : List Char) (standsAlone : Bool) :
        Except Refusal Element :=
      (afterDeclaration k bytes.length standsAlone rest).mapError fun (fault, place) =>
        told text fault place
    match declarationParts? first body with
    | none => finish first text body false
    | some (inside, after) =>
      let placeOf (place : List Char) : List Char :=
        text.drop (text.length - after.length - 2 - place.length)
      match readDeclaration inside with
      | .error place => .error (told text .malformedDeclaration (placeOf place))
      | .ok ⟨none, standsAlone⟩ => finish first text after standsAlone
      | .ok ⟨some (name, place), standsAlone⟩ =>
        match declaredCoding first name with
        | .error (.misdeclared fault) => .error (told text fault (placeOf place))
        | .error (.unusable fault) => .error (.unusable fault)
        | .ok coding =>
          let size := first.byteCount (text.take (text.length - after.length))
          let front := coding.decode (bytes.take size)
          let rest := coding.decode (bytes.drop size)
          finish coding (front ++ rest) rest standsAlone

end Assay.Markup
