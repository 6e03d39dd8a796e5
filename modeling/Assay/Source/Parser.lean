import Assay.Source.Declaration
import Assay.Source.Fault
import Assay.Source.Vocabulary

/-!
# Parsers over tokens

A parser reads tokens from the front of a list and records facts about the program as it goes. It
knows the type around it, it cannot change what was recorded before, and it fails at the first
token that does not fit, with the line of that token or, when the tokens end too soon, the last
line of the file. Loops go through `iterate`, which insists that every round consumes a token.
-/

namespace Assay.Source

/-- One fact about a program. -/
inductive Fact
  | declaration (d : Declaration)
  | loop (l : Loop)
  | catchClause (line : Nat)
  | access (a : MemberAccess)
  /-- The name stands for a value: a variable, parameter, field or enum constant. -/
  | value (name : String)
  /-- A field of the name is declared, static or not. -/
  | field (name : String) (isStatic : Bool)
  | importOf (i : Import)
  deriving DecidableEq, Repr

/-- The type around a piece of program; the name of an anonymous body is empty. -/
structure Enclosing where
  name : String
  kind : DeclarationKind
  deriving DecidableEq, Repr

/-- What a parser knows beside the tokens: the type around them and the last line of the file. -/
structure Scope where
  enclosing : Option Enclosing
  lastLine : Nat
  deriving DecidableEq, Repr

/-- The simple name of the type around, empty if there is none. -/
def Scope.owner (s : Scope) : String := (s.enclosing.map (·.name)).getD ""

/-- The kind of the type around. -/
def Scope.ownerKind (s : Scope) : Option DeclarationKind := s.enclosing.map (·.kind)

/-- What a parser returns: a value, the facts it recorded and the tokens it left. -/
structure Parsed (α : Type) where
  value : α
  facts : List Fact
  rest : List Token

/-- Reads tokens from the front of a list. -/
def Parser (α : Type) := Scope → List Token → Except SourceError (Parsed α)

namespace Parser

variable {α β σ : Type}

/-- Reads nothing. -/
protected def pure (a : α) : Parser α := fun _ ts => .ok ⟨a, [], ts⟩

/-- One parser and then another on what it left. -/
protected def bind (p : Parser α) (f : α → Parser β) : Parser β := fun scope ts =>
  match p scope ts with
  | .error e => .error e
  | .ok a =>
    match f a.value scope a.rest with
    | .error e => .error e
    | .ok b => .ok ⟨b.value, a.facts ++ b.facts, b.rest⟩

instance : Monad Parser where
  pure := Parser.pure
  bind := Parser.bind

/-- The tokens ahead, which stay unread. -/
def ahead : Parser (List Token) := fun _ ts => .ok ⟨ts, [], ts⟩

/-- What is known beside the tokens. -/
def scope : Parser Scope := fun s ts => .ok ⟨s, [], ts⟩

/-- Goes on with the given tokens, which lie ahead. -/
def resumeAt (rest : List Token) : Parser Unit := fun _ _ => .ok ⟨(), [], rest⟩

/-- Records a fact. -/
def record (fact : Fact) : Parser Unit := fun _ ts => .ok ⟨(), [fact], ts⟩

/-- Records facts in order. -/
def recordAll (facts : List Fact) : Parser Unit := fun _ ts => .ok ⟨(), facts, ts⟩

/-- The line a token list is reported at. -/
def lineAt (s : Scope) (ts : List Token) : Nat := (ts.head?.map (·.line)).getD s.lastLine

/-- The line of the next token. -/
def line : Parser Nat := fun s ts => .ok ⟨lineAt s ts, [], ts⟩

/-- Fails at the next token, or with the end of the file if there is none. -/
def failAhead (fault : String → Fault) : Parser α := fun s ts =>
  match ts with
  | [] => .error ⟨.unexpectedEnd, s.lastLine⟩
  | t :: _ => .error ⟨fault t.text, t.line⟩

/-- Fails on the given line. -/
def failOn (line : Nat) (fault : Fault) : Parser α := fun _ _ => .error ⟨fault, line⟩

/-- Reads the next token, whatever it is. -/
def next : Parser Token := fun s ts =>
  match ts with
  | [] => .error ⟨.unexpectedEnd, s.lastLine⟩
  | t :: rest => .ok ⟨t, [], rest⟩

/-- Reads the next token and forgets it. -/
def skip : Parser Unit := do discard next

/-- The next token is the given word. -/
def sees (word : String) : Parser Bool := do return begins word (← ahead)

/-- Reads the given word. -/
def expect (word : String) : Parser Unit := do
  if ← sees word then skip else failAhead (.expected word)

/-- Reads a name. -/
def name : Parser Token := do
  if startsWith (·.isName) (← ahead) then next else failAhead .expectedName

/-- Reads inside the given type. -/
def within (type : Enclosing) (p : Parser α) : Parser α := fun s ts =>
  p { s with enclosing := some type } ts

/-- Runs rounds until one of them finishes; every other round has to consume a token. -/
def iterate (round : σ → Parser (σ ⊕ β)) (state : σ) (s : Scope) (ts : List Token) :
    Except SourceError (Parsed β) :=
  match round state s ts with
  | .error e => .error e
  | .ok ⟨.inr b, facts, rest⟩ => .ok ⟨b, facts, rest⟩
  | .ok ⟨.inl state', facts, rest⟩ =>
    if rest.length < ts.length then
      match iterate round state' s rest with
      | .error e => .error e
      | .ok r => .ok ⟨r.value, facts ++ r.facts, r.rest⟩
    else .error ⟨.stalled, lineAt s ts⟩
termination_by ts.length

/-- Runs rounds as long as they ask for another. -/
def repeatWhile (round : Parser Bool) : Parser Unit :=
  iterate (fun _ => do if ← round then return .inl () else return .inr ()) ()

/-- Runs a parser until the given word is next. -/
def untilSees (word : String) (p : Parser Unit) : Parser Unit :=
  repeatWhile do
    if ← sees word then return false
    p
    return true

/-- Runs rounds as long as they give a result, and collects the results. -/
def gather (round : Parser (Option α)) : Parser (List α) :=
  iterate (fun found => do
    match ← round with
    | some a => return .inl (found ++ [a])
    | none => return .inr found) []

/-- Reads items with a comma before each. -/
def afterCommas (item : Parser Unit) : Parser Unit :=
  repeatWhile do
    if ← sees "," then
      skip
      item
      return true
    return false

/-! ## Recording -/

/-- Records a declaration in the type around, with the counts of a method or constructor. -/
def declareCallable (kind : DeclarationKind) (name : String) (line arity : Nat)
    (varargs isStatic : Bool) : Parser Unit := do
  let s ← scope
  record (.declaration ⟨kind, name, line, s.owner, arity, varargs, isStatic⟩)

/-- Records a declaration in the type around. -/
def declare (kind : DeclarationKind) (name : String) (line : Nat) : Parser Unit :=
  declareCallable kind name line 0 false false

/-- Records the declaration of a name that stands for a value. -/
def declareValue (kind : DeclarationKind) (t : Token) : Parser Unit := do
  declare kind t.text t.line
  record (.value t.text)

/-- Records a field access. -/
def accessField (name qualifier : String) (kind : QualifierKind) (line : Nat) : Parser Unit :=
  record (.access ⟨.field, name, qualifier, kind, line, none⟩)

/-- Records a method call. -/
def accessMethod (name qualifier : String) (kind : QualifierKind) (line arity : Nat) :
    Parser Unit :=
  record (.access ⟨.method, name, qualifier, kind, line, some arity⟩)

end Parser

end Assay.Source
