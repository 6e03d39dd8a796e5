import Assay.Markup.Scan

/-!
# Tokens outside content

What stands outside the root element of a document, and inside its type declaration, is made of
tokens: names, quoted texts, marks, whole comments and instructions, and the openings of
declarations. White space between them means nothing. A token that the grammar has no place for is
a fault that depends on what the token is.
-/

namespace Assay.Markup

/-- A token outside content. -/
inductive Token
  | name (text : List Char)
  /-- A name that a colon divides in two. -/
  | qualifiedName (text : List Char)
  /-- Characters of names that do not make a name. -/
  | nameToken
  /-- A name with a mark of repetition. -/
  | markedName
  /-- A name after a number sign. -/
  | hashName (text : List Char)
  /-- A quoted text: what stands between its quotes. -/
  | literal (inside : List Char)
  | parameterReference
  | percent
  /-- The opening of a declaration, with its keyword. -/
  | declaration (keyword : List Char)
  | close
  | openBracket
  | closeBracket
  | openGroup
  /-- The end of a group, with its mark of repetition. -/
  | closeGroup (mark : Option Char)
  | comma
  | bar
  | comment
  | instruction
  /-- The declaration of a document. -/
  | documentDeclaration
  | openSection
  | closeSection
  /-- The angle bracket of an element. -/
  | openElement
  deriving DecidableEq

/-- A token, the text from its start on and the text after it. -/
structure Lexeme where
  token : Token
  place : List Char
  rest : List Char

/-- A token at the end of a text. Half a unit after it belongs to its text, so that the text is no
keyword and no value. -/
def Token.atEnd (t : Token) (remains : List Char) : Token :=
  match t with
  | .name text => .name (text ++ remains)
  | .qualifiedName text => .qualifiedName (text ++ remains)
  | .hashName text => .hashName (text ++ remains)
  | .literal inside => .literal (inside ++ remains)
  | t => t

/-- A token that has no place where it stands. -/
def Lexeme.stray {α : Type} (l : Lexeme) : Attempt α :=
  match l.token with
  | .parameterReference => .error (.misplacedParameter, l.place)
  | .documentDeclaration => .error (.misplacedDeclaration, l.place)
  | _ => .error (.unexpectedToken, l.place)

/-! ## Kinds of tokens -/

/-- A quoted text after its opening quote. A separator or the end has to follow it. -/
def scanLiteral (start : List Char) (quote : Char) (cs : List Char) : Scan Token :=
  let isInside := fun c => c != quote && isDocumentChar c
  match cs.dropWhile isInside with
  | c :: after =>
    if c != quote then unfit start (c :: after)
    else if isAtEnd after then .ok (Token.atEnd (.literal (cs.takeWhile isInside)) after, [])
    else if after.head?.any fun c => isSpace c || ">%[".toList.contains c then
      .ok (.literal (cs.takeWhile isInside), after)
    else misfit start after
  | [] => misfit start []

/-- The kind of a token that consists of characters of names and colons. -/
def nameKind (k : Coding) (text : List Char) : Token :=
  if !text.head?.any k.startsName then .nameToken
  else if !text.contains ':' then .name text
  else if text.count ':' == 1 && text.getLast? != some ':' then .qualifiedName text
  else .nameToken

/-- A token of characters of names and colons. Only a name can have a mark of repetition. -/
def scanNames (k : Coding) (cs : List Char) : Scan Token :=
  let inToken := fun c => k.continuesName c || c == ':'
  let text := cs.takeWhile inToken
  let kind := nameKind k text
  let remains := cs.dropWhile inToken
  if isAtEnd remains then
    let wantsMore := text.head?.any k.startsName && text.count ':' == 1 && kind == .nameToken
    if wantsMore then misfit cs [] else .ok (kind.atEnd remains, [])
  else
    match remains with
    | [] => misfit cs []
    | after :: rest =>
      if "+*?".toList.contains after then
        if kind == .nameToken then .error (.invalidToken, remains) else .ok (.markedName, rest)
      else if isSpace after || ">),|[%".toList.contains after then .ok (kind, remains)
      else unfit cs remains

/-- What starts with a percent sign, after it: a reference to a parameter, or the sign alone. -/
def scanPercent (k : Coding) (start cs : List Char) : Scan Token :=
  if cs.head?.any fun c => isSpace c || c == '%' then .ok (.percent, cs)
  else
    match scanName k start cs with
    | .error e => .error e
    | .ok (_, ';' :: rest) => .ok (.parameterReference, rest)
    | .ok (_, rest) => unfit start rest

/-- A name after its number sign. -/
def scanHashName (k : Coding) (start cs : List Char) : Scan Token :=
  match scanName k start cs with
  | .error e => .error e
  | .ok (name, rest) =>
    if isAtEnd rest then .ok (Token.atEnd (.hashName name) rest, [])
    else if rest.head?.any fun c => isSpace c || ")>%|".toList.contains c then
      .ok (.hashName name, rest)
    else unfit start rest

/-- The opening of a declaration after its exclamation mark: a comment is read whole. -/
def scanOpening (k : Coding) (start cs : List Char) : Scan Token :=
  match cs with
  | '-' :: rest => (scanComment start rest).map fun ((), rest) => (.comment, rest)
  | '[' :: rest => .ok (.openSection, rest)
  | _ =>
    let keyword := cs.takeWhile k.inKeyword
    match cs.dropWhile k.inKeyword with
    | '%' :: rest =>
      if keyword.isEmpty then .error (.invalidToken, '%' :: rest)
      else if isAtEnd rest then misfit start []
      else if rest.head?.any fun c => isSpace c || c == '%' then
        .error (.invalidToken, '%' :: rest)
      else .ok (.declaration keyword, '%' :: rest)
    | rest =>
      if !keyword.isEmpty && rest.head?.any isSpace then .ok (.declaration keyword, rest)
      else misfit start rest

/-- What starts with an angle bracket, after it. -/
def scanAngle (k : Coding) (start cs : List Char) : Scan Token :=
  match cs with
  | '!' :: rest => scanOpening k start rest
  | '?' :: rest =>
    (scanInstruction k start rest).map fun (isDeclaration, rest) =>
      (if isDeclaration then .documentDeclaration else .instruction, rest)
  | _ => if cs.head?.any k.opensElement then .ok (.openElement, cs) else misfit start cs

/-- The end of a group, after its bracket. -/
def scanGroupEnd (start cs : List Char) : Scan Token :=
  match cs with
  | [] => .ok (.closeGroup none, [])
  | c :: rest =>
    if isAtEnd cs then .ok (.closeGroup none, [])
    else if "*?+".toList.contains c then .ok (.closeGroup (some c), rest)
    else if isSpace c || ">,|)".toList.contains c then .ok (.closeGroup none, cs)
    else misfit start cs

/-- A closing square bracket, after it. -/
def scanBracketEnd (start cs : List Char) : Scan Token :=
  match cs with
  | ']' :: '>' :: rest => .ok (.closeSection, rest)
  | ']' :: rest => if isAtEnd rest then misfit start [] else .ok (.closeBracket, cs)
  | _ => .ok (.closeBracket, if isAtEnd cs then [] else cs)

/-- The token at the start of a text. -/
def scanToken (k : Coding) (cs : List Char) : Scan Token :=
  match cs with
  | [] => .error (.noElement, [])
  | c :: rest =>
    match c with
    | '"' | '\'' => scanLiteral cs c rest
    | '<' => scanAngle k cs rest
    | '%' => scanPercent k cs rest
    | '#' => scanHashName k cs rest
    | ')' => scanGroupEnd cs rest
    | ']' => scanBracketEnd cs rest
    | '(' => .ok (.openGroup, rest)
    | '[' => .ok (.openBracket, rest)
    | ',' => .ok (.comma, rest)
    | '|' => .ok (.bar, rest)
    | '>' => .ok (.close, rest)
    | _ => if k.continuesName c || c == ':' then scanNames k cs else unfit cs cs

/-- The next token after white space. -/
def nextToken (k : Coding) (cs : List Char) : Attempt Lexeme :=
  let place := skipSpace cs
  (scanToken k place).map fun (token, rest) => ⟨token, place, rest⟩

end Assay.Markup
