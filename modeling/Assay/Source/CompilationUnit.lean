import Assay.Source.Body
import Assay.Source.Lexer
import Assay.Text.Layout

/-!
# Compilation units

What one source file holds: its facts in reading order, its documentation comments and the number of
lines it spans. The lists that are counted are views of the facts. A file is read with as much room
for constructs as it needs, or with a given room, which may not do.
-/

namespace Assay.Source

namespace Parser

/-- Passes over the declaration of a module. -/
def moduleDeclaration : Parser Unit := do
  untilSees "\x7b" skip
  skipGroup

/-- Reads an import. -/
def importDeclaration : Parser Unit := do
  expect "import"
  let isStatic ← sees "static"
  if isStatic then skip
  let imported ← dottedName
  -- the dotted name ends before the star, which is no name
  let ts ← ahead
  let wildcard := begins "." ts && begins "*" ts.tail
  if wildcard then resumeAt (ts.drop 2)
  expect ";"
  record (.importOf ⟨imported, isStatic, wildcard⟩)

/-- Reads the package declaration if it is there. -/
def packageDeclaration : Parser Unit := do
  skipAnnotations
  if ← sees "package" then
    let line ← line
    skip
    let declared ← dottedName
    expect ";"
    declare .package declared line

/-- Reads one declaration at the top of a file. -/
def topLevelDeclaration (nested : Construct → Parser Unit) : Parser Unit := do
  let ts ← ahead
  if begins ";" ts then skip
  else if startsWith (·.spellsAny ["module", "open"]) ts then moduleDeclaration
  else
    let line ← line
    discard (modifiers memberModifiers)
    -- at the top of a file there are types only
    if !(← typeDeclaration nested line) then failAhead .expectedType

/-- Reads a whole file. -/
def file (nested : Construct → Parser Unit) : Parser Unit := do
  packageDeclaration
  repeatWhile do
    if ← sees "import" then
      importDeclaration
      return true
    else if ← sees ";" then
      skip
      return true
    else return false
  repeatWhile do
    if (← ahead).isEmpty then return false
    topLevelDeclaration nested
    return true

end Parser

/-- What is known beside the code of a file when its reading begins. -/
def openingScope (code : List Token) : Scope := ⟨none, (code.getLast?.map (·.endLine)).getD 0⟩

/-- The facts of a file, given its tokens without comments and room for `depth` constructs that are
open at a time. -/
def factsWithin (depth : Nat) (code : List Token) : Except SourceError (List Fact) :=
  (Parser.file (Parser.construct depth) (openingScope code) code).map (·.facts)

/-- The facts of a file, given its tokens without comments and all the room they need. -/
def factsOf (code : List Token) : Except SourceError (List Fact) :=
  factsWithin (Parser.depthFor code.length) code

/-- The structure of one source file. -/
structure CompilationUnit where
  facts : List Fact
  docComments : List DocComment
  /-- The number of lines from the first token to the last, comments included. -/
  lineSpan : Nat
  deriving DecidableEq, Repr

/-- The structure of a source text, given how the facts of its code are read. -/
def CompilationUnit.parseBy (read : List Token → Except SourceError (List Fact)) (text : String) :
    Except SourceError CompilationUnit :=
  match tokens text with
  | .error e => .error ⟨.invalidToken e.near, e.line⟩
  | .ok all =>
    (read (all.filter (!·.isComment))).map fun facts =>
      { facts
        docComments := all.filterMap fun t =>
          if t.kind == .docComment then some ⟨t.line, t.endLine⟩ else none
        lineSpan := match all.head?, all.getLast? with
          | some first, some last => last.endLine + 1 - first.line
          | _, _ => 0 }

/-- The structure of a source text, read with room for `depth` constructs that are open at a time. -/
def CompilationUnit.parseWithin (depth : Nat) (text : String) : Except SourceError CompilationUnit :=
  parseBy (factsWithin depth) text

/-- The structure of a source text, read with all the room it needs. -/
def CompilationUnit.parse (text : String) : Except SourceError CompilationUnit :=
  parseBy factsOf text

/-- If something is told of a file, the file is read. -/
theorem CompilationUnit.exists_of_parse_map {α : Type} {text : String} {f : CompilationUnit → α}
    {a : α} (h : (CompilationUnit.parse text).map f = .ok a) :
    ∃ u, CompilationUnit.parse text = .ok u ∧ f u = a := by
  cases hparse : CompilationUnit.parse text with
  | error e =>
    rw [hparse] at h
    cases h
  | ok u =>
    rw [hparse] at h
    exact ⟨u, rfl, Except.ok.inj h⟩

namespace CompilationUnit

/-! ## Views -/

/-- The declarations in reading order. -/
def declarations (u : CompilationUnit) : List Declaration :=
  u.facts.filterMap fun | .declaration d => some d | _ => none

/-- The loops, each at the place of its header. -/
def loops (u : CompilationUnit) : List Loop :=
  u.facts.filterMap fun | .loop l => some l | _ => none

/-- The lines of the `catch` clauses. -/
def catchClauses (u : CompilationUnit) : List Nat :=
  u.facts.filterMap fun | .catchClause line => some line | _ => none

/-- The member accesses in reading order. -/
def accesses (u : CompilationUnit) : List MemberAccess :=
  u.facts.filterMap fun | .access a => some a | _ => none

/-- The imports in order. -/
def imports (u : CompilationUnit) : List Import :=
  u.facts.filterMap fun | .importOf i => some i | _ => none

/-- The names that stand for a value somewhere in the file, with repetitions. -/
def valueNames (u : CompilationUnit) : List String :=
  u.facts.filterMap fun | .value name => some name | _ => none

/-- The declared fields and whether each is static. -/
def fields (u : CompilationUnit) : List (String × Bool) :=
  u.facts.filterMap fun | .field name isStatic => some (name, isStatic) | _ => none

/-- For every declaration of a field of this name, whether it is static. -/
def fieldFlags (u : CompilationUnit) (name : String) : List Bool :=
  u.fields.filterMap fun (field, isStatic) => if field == name then some isStatic else none

/-- The declarations of the given kinds. -/
def declarationsOf (u : CompilationUnit) (kinds : List DeclarationKind) : List Declaration :=
  u.declarations.filter fun d => kinds.contains d.kind

/-- The name of the package, if the file names one. -/
def package? (u : CompilationUnit) : Option String :=
  (u.declarations.find? (·.kind == .package)).map (·.name)

/-- The names of the declared types, with repetitions. -/
def typeNames (u : CompilationUnit) : List String :=
  (u.declarations.filter (·.kind.isType)).map (·.name)

/-! ## Counts -/

/-- The number of declarations of the given kinds. -/
def countDeclarations (u : CompilationUnit) (kinds : List DeclarationKind) : Nat :=
  (u.declarationsOf kinds).length

/-- The number of loops of the given kinds; of all loops if none is given. -/
def countLoops (u : CompilationUnit) (kinds : List LoopKind) : Nat :=
  if kinds.isEmpty then u.loops.length
  else (u.loops.filter fun l => kinds.contains l.kind).length

/-- The number of lines that documentation comments cover. -/
def docCommentLines (u : CompilationUnit) : Nat := (u.docComments.map (·.lineCount)).foldr (· + ·) 0

end CompilationUnit

/-! ## Names -/

/-- The last part of an imported name. -/
def Import.simpleName (i : Import) : String :=
  String.ofList (Text.afterLast '.' i.name.toList)

end Assay.Source
