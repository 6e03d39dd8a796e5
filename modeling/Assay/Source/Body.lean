import Assay.Source.Header

/-!
# Declarations, statements and expressions

Members, statements, expressions and array initialisers contain one another to any depth. Each of
the four is a `Construct`, and every parser of this module takes the parser of constructs as an
argument; `construct` ties the knot, with the number of constructs there is room for as its measure.
Where there is no room left the reading ends. Expressions are passed over rather than built: what
counts in them are the accesses, the names that lambda expressions and patterns declare, and the
bodies and blocks inside.
-/

namespace Assay.Source

/-- What programs nest. -/
inductive Construct
  | member
  | statement
  /-- Everything up to one of the given operators or a closing bracket. -/
  | expression (stop : List String)
  | arrayInitializer

namespace Parser

section Nested

variable (nested : Construct → Parser Unit)

/-! ## Blocks and bodies -/

/-- Reads an expression in parentheses. -/
def parenthesized : Parser Unit := do
  expect "("
  nested (.expression [])
  expect ")"

/-- Reads statements between braces. -/
def block : Parser Unit := do
  expect "\x7b"
  untilSees "\x7d" (nested .statement)
  expect "\x7d"

/-- Reads members between braces. -/
def classBody : Parser Unit := do
  expect "\x7b"
  untilSees "\x7d" (nested .member)
  expect "\x7d"

/-- Reads the body of a class without a name. -/
def anonymousBody : Parser Unit := within ⟨"", .classType⟩ (classBody nested)

/-- Reads one enum constant, or the comma after one. -/
def enumConstant : Parser Unit := do
  skipAnnotations
  -- the comma between two constants is a round of its own
  if ← sees "," then skip
  else
    record (.value (← name).text)
    if ← sees "(" then parenthesized nested
    if ← sees "\x7b" then anonymousBody nested

/-- Reads enum constants, and members after a semicolon, between braces. -/
def enumBody : Parser Unit := do
  expect "\x7b"
  repeatWhile do
    if (← sees ";") || (← sees "\x7d") then return false
    enumConstant nested
    return true
  if ← sees ";" then skip
  untilSees "\x7d" (nested .member)
  expect "\x7d"

/-- Reads a type declaration if one starts here, and tells whether one did. Its line is given, since
modifiers may come before it. -/
def typeDeclaration (line : Nat) : Parser Bool := do
  let ts ← ahead
  match typeKeyword? ts with
  | none => return false
  | some (kind, length) =>
    resumeAt (ts.drop length)
    let declared ← name
    declare kind declared.text line
    within ⟨declared.text, kind⟩ do
      if kind == .recordType then
        skipOptionalTypeArguments
        discard parameters
      -- super types and bounds record nothing, so the header is passed over token by token
      untilSees "\x7b" skip
      if kind == .enumType then enumBody nested else classBody nested
    return true

/-! ## Members -/

/-- Reads what follows a declared variable: dimensions and an initial value. -/
def initializer : Parser Unit := do
  dimensions
  if ← sees "=" then
    skip
    if ← sees "\x7b" then nested .arrayInitializer else nested (.expression [",", ";"])

/-- Reads what follows a field's name, and records the field. -/
def fieldRest (isStatic : Bool) (declared : Token) : Parser Unit := do
  record (.value declared.text)
  record (.field declared.text isStatic)
  initializer nested

/-- Reads the default value of an annotation's element. -/
def elementValue : Parser Unit := do
  if ← sees "\x7b" then nested .arrayInitializer
  else if ← sees "@" then skipAnnotations
  else nested (.expression [";"])

/-- Reads what follows a method's name. The elements of an annotation type have the form of methods
but are not recorded. -/
def methodRest (declared : Token) (isStatic : Bool) (line : Nat) : Parser Unit := do
  let (arity, varargs) ← parameters
  -- brackets behind the parameters belong to the type of the result
  dimensions
  throwsClause
  if (← scope).ownerKind == some .annotationType then
    if ← sees "default" then
      skip
      elementValue nested
    expect ";"
  else
    declareCallable .method declared.text line arity varargs isStatic
    if ← sees ";" then skip else block nested

/-- Reads a constructor from its name on. -/
def constructor (line : Nat) : Parser Unit := do
  let declared ← name
  let (arity, varargs) ← parameters
  declareCallable .constructor declared.text line arity varargs false
  throwsClause
  block nested

/-- Reads a field or method from its type on. -/
def fieldOrMethod (isStatic : Bool) (line : Nat) : Parser Unit := do
  type
  let declared ← name
  if ← sees "(" then methodRest nested declared isStatic line
  else
    -- the fields of some types are static without the word
    let owned := ((← scope).ownerKind.map (·.makesFieldsStatic)).getD false
    let isStatic := isStatic || owned
    declare (if isStatic then .staticField else .instanceField) declared.text line
    fieldRest nested isStatic declared
    afterCommas do fieldRest nested isStatic (← name)
    expect ";"

/-- Reads a member after its modifiers, unless it is a type. -/
def memberRest (isStatic : Bool) (line : Nat) : Parser Unit := do
  skipOptionalTypeArguments
  let s ← scope
  let ts ← ahead
  let ownName := startsWith (fun t => t.isName && t.text == s.owner) ts
  if ownName && begins "(" ts.tail then constructor nested line
  -- the constructor of a record may leave out its parameters
  else if ownName && s.ownerKind == some .recordType && begins "\x7b" ts.tail then
    skip
    block nested
  else fieldOrMethod nested isStatic line

/-- Reads a member of a type. -/
def member : Parser Unit := do
  let ts ← ahead
  if begins ";" ts then skip
  else if begins "\x7b" ts then block nested
  else if begins "static" ts && begins "\x7b" ts.tail then
    skip
    block nested
  else
    -- a member has the line of its first modifier or annotation
    let line ← line
    let found ← modifiers memberModifiers
    if !(← typeDeclaration nested line) then
      memberRest nested (found.contains "static") line

/-! ## Statements -/

/-- Reads a local variable from its name on. -/
def localVariable : Parser Unit := do
  declareValue .variableDeclarator (← name)
  initializer nested

/-- Reads the declaration of local variables, without the semicolon. -/
def localDeclaration : Parser Unit := do
  type
  localVariable nested
  afterCommas (localVariable nested)

/-- Reads an expression and a semicolon. -/
def expressionStatement : Parser Unit := do
  nested (.expression [";"])
  expect ";"

/-- Reads the first part of a `for` header: a declaration or an expression. -/
def forInitializer : Parser Unit := do
  let found ← modifiers localModifiers
  if !found.isEmpty || isLocalDeclaration (← ahead) then localDeclaration nested
  else nested (.expression [";"])

/-- Reads a `for` statement. The loop is recorded between its header and its body. -/
def forStatement (line : Nat) : Parser Unit := do
  expect "for"
  expect "("
  let kind ← do
    if isForEach 0 0 (← ahead) then
      discard (modifiers localModifiers)
      type
      declareValue .variableDeclarator (← name)
      expect ":"
      nested (.expression [")"])
      pure LoopKind.forEachLoop
    else
      if !(← sees ";") then forInitializer nested
      expect ";"
      if !(← sees ";") then nested (.expression [";"])
      expect ";"
      if !(← sees ")") then nested (.expression [")"])
      pure LoopKind.forLoop
  expect ")"
  -- the line is that of the word, the place behind the header
  record (.loop ⟨kind, line⟩)
  nested .statement

/-- Reads one resource of a `try` statement, or the semicolon after one. -/
def resource : Parser Unit := do
  if ← sees ";" then skip
  else
    let found ← modifiers localModifiers
    if !found.isEmpty || isLocalDeclaration (← ahead) then
      type
      declareValue .variableDeclarator (← name)
      expect "="
    -- a resource without a type is an expression, and one with a type has one behind it
    nested (.expression [";", ")"])
    if !(startsWith (·.spellsAny [";", ")"]) (← ahead)) then failAhead (.expectedEither ";" ")")

/-- Reads a `catch` clause from its parenthesis on. -/
def catchRest (line : Nat) : Parser Unit := do
  expect "("
  discard (modifiers localModifiers)
  type
  repeatWhile do
    if ← sees "|" then
      skip
      type
      return true
    return false
  declareValue .parameter (← name)
  expect ")"
  record (.catchClause line)
  block nested

/-- Reads a `try` statement. -/
def tryStatement : Parser Unit := do
  expect "try"
  if ← sees "(" then
    skip
    untilSees ")" (resource nested)
    expect ")"
  block nested
  repeatWhile do
    if ← sees "catch" then
      let line ← line
      skip
      catchRest nested line
      return true
    return false
  if ← sees "finally" then
    skip
    block nested

/-- Reads what follows a case label: the arrow with its block, exception or value, or the colon. -/
def caseRest : Parser Unit := do
  if ← sees "->" then
    skip
    if ← sees "\x7b" then block nested
    else if ← sees "throw" then nested .statement
    else expressionStatement nested
  else expect ":"

/-- Reads the body of a `switch`: labels and statements. -/
def switchBlock : Parser Unit := do
  expect "\x7b"
  untilSees "\x7d" do
    if ← sees "case" then
      skip
      nested (.expression [":", "->"])
      caseRest nested
    else if ← sees "default" then
      skip
      caseRest nested
    else nested .statement
  expect "\x7d"

/-- Reads a statement that is told by none of its words: a label, a declaration or an expression. -/
def unnamedStatement (ts : List Token) (line : Nat) : Parser Unit := do
  if startsWith (·.isName) ts && begins ":" ts.tail then
    resumeAt (ts.drop 2)
    nested .statement
  -- behind modifiers or annotations stands a type or a local variable
  else if startsWith (·.spellsAny localModifiers) ts || beginsAnnotations ts then
    discard (modifiers localModifiers)
    if !(← typeDeclaration nested line) then
      localDeclaration nested
      expect ";"
  else if !(← typeDeclaration nested line) then
    if isLocalDeclaration ts then
      localDeclaration nested
      expect ";"
    else expressionStatement nested

/-- Reads a statement. -/
def statement : Parser Unit := do
  let ts ← ahead
  match ts with
  | [] => failAhead fun _ => .unexpectedEnd
  | t :: rest =>
    if t.spells "\x7b" then block nested
    else if t.spells ";" then skip
    else if t.spells "if" then
      skip
      parenthesized nested
      nested .statement
      if ← sees "else" then
        skip
        nested .statement
    else if t.spells "for" then forStatement nested t.line
    else if t.spells "while" then
      skip
      parenthesized nested
      record (.loop ⟨.whileLoop, t.line⟩)
      nested .statement
    else if t.spells "do" then
      skip
      record (.loop ⟨.doLoop, t.line⟩)
      nested .statement
      expect "while"
      parenthesized nested
      expect ";"
    else if t.spells "try" then tryStatement nested
    else if t.spells "switch" then
      skip
      parenthesized nested
      switchBlock nested
    else if t.spells "synchronized" && begins "(" rest then
      skip
      parenthesized nested
      block nested
    else if t.spellsAny ["return", "throw", "assert"] then
      skip
      expressionStatement nested
    else if t.spellsAny ["break", "continue"] then
      skip
      if startsWith (·.isName) (← ahead) then skip
      expect ";"
    else unnamedStatement nested ts t.line

/-! ## Expressions -/

/-- The field accesses of a chain of names: one for every name after the first, whose qualifier is
the chain before it. -/
def chainFields (line : Nat) (qualifier : String) : List String → List Fact
  | [] => []
  | segment :: more =>
    .access ⟨.field, segment, qualifier, .name, line, none⟩ ::
      chainFields line (qualifier ++ "." ++ segment) more

/-- Reads the names of a chain after its first. Explicit type arguments may come before a name. -/
def chainSegments : Parser (List String) :=
  gather do
    match ← ahead with
    | dot :: t :: rest =>
      if dot.spells "." then
        if t.isName then
          resumeAt rest
          return some t.text
        else if t.spells "<" then
          -- explicit type arguments belong to the chain only if a name follows them
          match typeArgumentsRest? 0 (t :: rest) with
          | some (segment :: rest) =>
            if segment.isName then
              resumeAt rest
              return some segment.text
            return none
          | _ => return none
        else return none
      else return none
    | _ => return none

/-- Reads a call's arguments and records the call before the accesses in them. -/
def call (name qualifier : String) (kind : QualifierKind) (line : Nat) : Parser Unit := do
  accessMethod name qualifier kind line (← argumentsAhead)
  parenthesized nested

/-- Reads a member that an expression is asked for, and records a call or a field access. -/
def selected (qualifier : String) (kind : QualifierKind) : Parser Unit := do
  let t ← name
  if ← sees "(" then call nested t.text qualifier kind t.line
  else accessField t.text qualifier kind t.line

/-- Reads `this` or `super` with the arguments of a constructor call or the member that follows. -/
def thisOrSuper : Parser Unit := do
  let t ← next
  let kind := if t.text == "this" then QualifierKind.this else QualifierKind.super
  let ts ← ahead
  if begins "(" ts then parenthesized nested
  else if begins "." ts && begins "<" ts.tail then
    skip
    skipTypeArguments
    selected nested t.text kind
  else if begins "." ts && startsWith (·.isName) ts.tail then
    skip
    selected nested t.text kind

/-- Reads a chain of names, and records nothing if it names a class literal: else its field accesses
and, if arguments follow, the call of the last name. -/
def nameChain : Parser Unit := do
  let first ← name
  let more ← chainSegments
  let ts ← ahead
  if begins "." ts && begins "class" ts.tail then resumeAt (ts.drop 2)
  -- the names before the last one qualify the call, and are accesses of their own
  else if begins "(" ts then
    recordAll (chainFields first.line first.text more.dropLast)
    match more.getLast? with
    | none => call nested first.text "" .none first.line
    | some last =>
      call nested last (String.intercalate "." (first.text :: more.dropLast)) .name first.line
  else
    recordAll (chainFields first.line first.text more)
    if begins "." ts && begins "this" ts.tail then
      skip
      thisOrSuper nested

/-- Reads what is selected from the value of an expression, from the dot on. -/
def selector : Parser Unit := do
  expect "."
  skipOptionalTypeArguments
  let ts ← ahead
  -- what creates an inner object is read by the next part
  if begins "new" ts then return
  else if begins "class" ts then skip
  else if begins "this" ts || begins "super" ts then thisOrSuper nested
  else selected nested "" .expression

/-- Reads the name of what is created. -/
def createdName : Parser Unit := do
  skipOptionalTypeArguments
  skipAnnotations
  if startsWith (·.isPrimitive) (← ahead) then skip
  else
    discard name
    skipOptionalTypeArguments
    repeatWhile do
      let ts ← ahead
      if begins "." ts && startsWith (·.isName) ts.tail then
        resumeAt (ts.drop 2)
        skipOptionalTypeArguments
        return true
      return false

/-- Reads the creation of an object, with the body of its class, or of an array. -/
def creation : Parser Unit := do
  expect "new"
  createdName
  if ← sees "(" then
    parenthesized nested
    if ← sees "\x7b" then anonymousBody nested
  else
    -- an array: each bracket holds a length or nothing
    repeatWhile do
      if ← sees "[" then
        skip
        if !(← sees "]") then nested (.expression [])
        expect "]"
        return true
      return false
    if ← sees "\x7b" then nested .arrayInitializer

/-- Reads an array initialiser. -/
def arrayInitializer : Parser Unit := do
  expect "\x7b"
  untilSees "\x7d" do
    if ← sees "," then skip
    else if ← sees "\x7b" then nested .arrayInitializer
    else
      nested (.expression [",", "\x7d"])
      if !(startsWith (·.spellsAny [",", "\x7d"]) (← ahead)) then
        failAhead (.expectedEither "," "\x7d")
  expect "\x7d"

/-- Reads from a parenthesis on: the parameters of a lambda expression, which are declared, the type
of a cast, or an expression. Tells whether the reading of the operand goes on as if nothing had been
read. -/
def fromParenthesis (rest : List Token) : Parser Bool := do
  let (inside, after) ← groupAhead
  if begins "->" after then
    (lambdaParameters 0 [] inside).forM (declareValue .parameter)
    resumeAt after
    return true
  -- the type of a cast records nothing, so the reading goes on at its operand
  match castRest? rest with
  | some operand =>
    resumeAt operand
    return true
  | none =>
    parenthesized nested
    return false

/-- Reads an `instanceof` test; a name after the type is a pattern variable. -/
def instanceTest : Parser Unit := do
  skip
  discard (modifiers localModifiers)
  type
  if startsWith (·.isName) (← ahead) then record (.value (← next).text)

/-- Reads one part of an expression, and tells whether an arrow comes directly before the next part:
a brace there opens the block of a lambda expression. -/
def expressionPart (stop : List String) (afterArrow : Bool) (t : Token) (rest : List Token) :
    Parser Bool := do
  if t.spells "(" then return (← fromParenthesis nested rest) && afterArrow
  else if t.spells "->" then
    skip
    return true
  else
    if t.spells "[" then
      skip
      nested (.expression [])
      expect "]"
    else if t.spells "\x7b" then
      -- only an arrow directly before makes a brace the block of a lambda expression
      if afterArrow then block nested else nested .arrayInitializer
    else if t.spells "::" then
      skip
      skipOptionalTypeArguments
      skip
    else if t.spells "." then selector nested
    else if t.spells "new" then creation nested
    else if t.spells "switch" then
      skip
      parenthesized nested
      switchBlock nested
    else if t.spells "this" || t.spells "super" then thisOrSuper nested
    else if t.spells "instanceof" then instanceTest
    else if t.isName then
      -- a name before an arrow is a parameter, unless the arrow ends the expression
      if begins "->" rest && !stop.contains "->" then declareValue .parameter (← name)
      else nameChain nested
    else skip
    return false

/-- Reads an expression up to one of the given operators or a closing bracket, which stays
unread. -/
def expression (stop : List String) : Parser Unit :=
  iterate (fun afterArrow => do
    match ← ahead with
    | [] => failAhead fun _ => .unexpectedEnd
    | t :: rest =>
      if t.isCloser || (t.isOperator && stop.contains t.text) then return .inr ()
      else return .inl (← expressionPart nested stop afterArrow t rest)) false

/-- Reads a construct, given how to read those inside it. -/
def constructStep : Construct → Parser Unit
  | .member => member nested
  | .statement => statement nested
  | .expression stop => expression nested stop
  | .arrayInitializer => arrayInitializer nested

end Nested

/-! ## Nesting -/

/-- Reads a construct with room for `depth` constructs that are open at a time. -/
def construct : (depth : Nat) → Construct → Parser Unit
  | 0, _ => do failOn (← line) .exhausted
  | depth + 1, c => constructStep (construct depth) c

/-- Enough room for any nesting of a number of tokens: between two constructs that open at the same
token lie at most two others, since a statement there can only hold an expression and an expression
only an array initialiser. -/
def depthFor (tokenCount : Nat) : Nat := 3 * (tokenCount + 1)

end Parser

end Assay.Source
