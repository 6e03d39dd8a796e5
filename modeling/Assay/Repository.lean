import Assay.Failure
import Assay.Text.Order

/-!
# Repositories

A directory whose Java sources are graded. A file belongs to it at any depth, unless a directory on
the way to it is hidden; files are listed in the order of their paths, component by component.
-/

namespace Assay

/-- A directory that is graded. -/
structure Repository where
  directory : Path
  deriving DecidableEq, Repr

namespace Repository

/-- The ending of Java sources. -/
def sourceEnding : List Char := ".java".toList

/-- The ending of user-interface descriptions. -/
def uiDescriptionEnding : List Char := ".fxml".toList

/-- The repository at a path, if there is a directory. -/
def locate (tree : FileTree) (directory : Path) : Except Failure Repository :=
  match tree.find directory with
  | .ok (.directory _) => .ok ⟨directory⟩
  | .error .nameTooLong => .error (.accident (.system .nameTooLong directory))
  | _ => .error (.missingRepository directory)

/-- A directory of this name and everything in it is left out. -/
def isHidden (name : String) : Bool := name.toList.head? == some '.'

/-- The file at these components below a repository is listed under the ending. -/
def lists (ending : List Char) (parts : List String) : Bool :=
  ending.isSuffixOf ((parts.getLast?.map String.toList).getD []) &&
    !parts.dropLast.any isHidden

/-- The files below a repository that have an ending. -/
def filesEnding (r : Repository) (ending : List Char) (tree : FileTree) : List Path :=
  match tree.find r.directory with
  | .error _ => []
  | .ok found =>
    ((found.files.filter (lists ending)).mergeSort Text.listLe).map r.directory.below

/-- The Java sources of a repository. -/
def sourceFiles (r : Repository) (tree : FileTree) : List Path := r.filesEnding sourceEnding tree

/-- The user-interface descriptions of a repository. -/
def uiDescriptions (r : Repository) (tree : FileTree) : List Path :=
  r.filesEnding uiDescriptionEnding tree

/-- The form in which a repository is displayed. -/
def describe (r : Repository) : String := "Repo(" ++ Text.quoted (toString r.directory) ++ ")"

end Repository

end Assay
