import Assay.Failure
import Assay.Source.StaticAccess

/-!
# Source files

A compilation unit with the path it was read from. Bytes that the encoding does not assign do not
stop the reading; they become replacement characters, which no token of a program holds outside
strings and comments.
-/

namespace Assay.Source

/-- The structure of a source text, with the path of its file if it has one. -/
structure SourceFile where
  path : Option Path
  unit : CompilationUnit
  deriving DecidableEq, Repr

namespace SourceFile

/-- The form in which a source file is displayed. -/
def describe (f : SourceFile) : String :=
  "CompilationUnit(" ++ (f.path.map toString).getD "None" ++ ", " ++
    toString f.unit.declarations.length ++ " declarations, " ++
    toString f.unit.accesses.length ++ " accesses, " ++ toString f.unit.lineSpan ++ " lines)"

/-- The structure of a text. -/
def ofText (path : Option Path) (text : String) : Except Failure SourceFile :=
  match CompilationUnit.parse text with
  | .error e => .error (.source path e)
  | .ok unit => .ok ⟨path, unit⟩

/-- The structure of the file at a path. -/
def read (encoding : Text.Encoding) (tree : FileTree) (path : Path) : Except Failure SourceFile :=
  match tree.read path with
  | .error fault => .error (.unreadableSource path fault)
  | .ok bytes =>
    ofText (some path) (String.ofList (Text.unifyLineEnds (encoding.decodeLossy bytes)))

/-- What is told of a file that was read. -/
def scanned (f : SourceFile) : Event := ⟨.debug, "scanned " ++ f.describe⟩

/-- What is told of the accesses in a file that stay open. -/
def openAccesses (f : SourceFile) : List Event :=
  let place := (f.path.map toString).getD "<source>"
  f.unit.unresolvedReports.map fun report => ⟨.debug, place ++ ": " ++ report⟩

end SourceFile

/-- The files of several outcomes, with what is told of each; the first failure ends the list. -/
def gather : List (Except Failure SourceFile) → Logged (List SourceFile)
  | [] => pure []
  | .error failure :: _ => .fail failure
  | .ok f :: outcomes => do
    .tell [f.scanned]
    let more ← gather outcomes
    return f :: more

end Assay.Source
