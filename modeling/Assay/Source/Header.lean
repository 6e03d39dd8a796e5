import Assay.Source.Lookahead

/-!
# The parts of a declaration's header

Names, annotations, modifiers, types and parameter lists. Nothing here contains statements or
expressions: the arguments of an annotation are passed over as a bracketed group, so that nothing
inside them is recorded.
-/

namespace Assay.Source.Parser

/-- The bracketed group ahead, which stays unread: the tokens inside it and those after it. -/
def groupAhead : Parser (List Token × List Token) := fun s ts =>
  match ts with
  | [] => .error ⟨.unexpectedEnd, s.lastLine⟩
  | opener :: rest =>
    match splitGroup opener.closer?.toList rest with
    | .ok parts => .ok ⟨parts, [], ts⟩
    | .error (some closer) => .error ⟨.unbalancedCloser closer.text, closer.line⟩
    | .error none => .error ⟨.unbalancedBrackets, opener.line⟩

/-- Passes over a bracketed group. -/
def skipGroup : Parser Unit := do
  let (_, rest) ← groupAhead
  resumeAt rest

/-- The number of arguments in the parentheses ahead, which stay unread. -/
def argumentsAhead : Parser Nat := do
  let (inside, _) ← groupAhead
  return argumentCount inside

/-- Reads names joined by dots. -/
def dottedName : Parser String := do
  let first ← name
  let more ← gather do
    match ← ahead with
    | dot :: part :: rest =>
      if dot.spells "." && part.isName then
        resumeAt rest
        return some part.text
      return none
    | _ => return none
  return String.intercalate "." (first.text :: more)

/-- An annotation starts the tokens, and not the declaration of an annotation type. -/
def beginsAnnotations (ts : List Token) : Bool := begins "@" ts && !begins "interface" ts.tail

/-- Passes over annotations and their arguments. -/
def skipAnnotations : Parser Unit :=
  repeatWhile do
    if beginsAnnotations (← ahead) then
      skip
      discard dottedName
      if ← sees "(" then skipGroup
      return true
    return false

/-- Reads the allowed modifiers, in order. Annotations and `non-sealed` may stand among them and are
passed over. -/
def modifiers (allowed : List String) : Parser (List String) := do
  let found ← gather do
    match ← ahead with
    | [] => return none
    | t :: rest =>
      if t.spellsAny allowed then
        skip
        return some [t.text]
      else if t.spells "non" && begins "-" rest && begins "sealed" rest.tail then
        resumeAt (rest.drop 2)
        return some []
      else if beginsAnnotations (t :: rest) then
        skipAnnotations
        return some []
      else return none
  return found.flatten

/-- Passes over type arguments: everything up to the angle bracket that closes the first one. No
block and no statement can end inside. -/
def skipTypeArguments : Parser Unit := do
  expect "<"
  iterate (fun depth => do
    let t ← next
    if t.spells "<" then return .inl (depth + 1)
    else if t.spells ">" then
      if depth ≤ 1 then return .inr () else return .inl (depth - 1)
    else if t.spellsAny [";", "\x7b", "\x7d"] then failOn t.line (.unterminatedTypeArguments t.text)
    else return .inl depth) 1

/-- Passes over type arguments if they are there. -/
def skipOptionalTypeArguments : Parser Unit := do
  if ← sees "<" then skipTypeArguments

/-- Passes over pairs of square brackets. -/
def dimensions : Parser Unit := do resumeAt (dimensionsRest (← ahead))

/-- Reads a type. -/
def type : Parser Unit := do
  skipAnnotations
  if startsWith (·.isPrimitive) (← ahead) then skip
  else
    discard name
    skipOptionalTypeArguments
    repeatWhile do
      let ts ← ahead
      if begins "." ts && (startsWith (·.isName) ts.tail || begins "@" ts.tail) then
        skip
        skipAnnotations
        discard name
        skipOptionalTypeArguments
        return true
      return false
  dimensions

/-- Reads a `throws` clause if it is there. -/
def throwsClause : Parser Unit := do
  if ← sees "throws" then
    skip
    type
    afterCommas type

/-- Reads a parameter list and declares the parameters; the receiver `this` is not one. Gives their
number and whether one of them takes any number of arguments. -/
def parameters : Parser (Nat × Bool) := do
  expect "("
  let counts ← iterate (fun (arity, varargs) => do
    if ← sees ")" then return .inr (arity, varargs)
    discard (modifiers localModifiers)
    type
    let ellipsis ← sees "..."
    if ellipsis then skip
    let receiver ← sees "this"
    if receiver then skip else declareValue .parameter (← name)
    dimensions
    if ← sees "," then skip
    else if !(← sees ")") then failAhead (.expectedEither "," ")")
    return .inl (if receiver then arity else arity + 1, varargs || ellipsis)) (0, false)
  expect ")"
  return counts

end Assay.Source.Parser
