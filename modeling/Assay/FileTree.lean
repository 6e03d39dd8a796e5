import Assay.Path
import Assay.Text.Order

/-!
# File trees

A directory tree as a value: reading, listing and changing it. Paths are followed one component at a
time, so that a double dot leads back to the directory the walk came from.
-/

namespace Assay

/-- Why an operation on files is refused. -/
inductive SystemFault
  | notFound
  | alreadyExists
  | notDirectory
  | isDirectory
  | nameTooLong
  /-- A path with a NUL in it is refused before the file system is asked. -/
  | unnameable
  deriving DecidableEq, Repr

namespace SystemFault

/-- The number of a fault of the file system. -/
def number? : SystemFault → Option Nat
  | .notFound => some 2
  | .alreadyExists => some 17
  | .notDirectory => some 20
  | .isDirectory => some 21
  | .nameTooLong => some 36
  | .unnameable => none

/-- The wording of a fault. -/
def message : SystemFault → String
  | .notFound => "No such file or directory"
  | .alreadyExists => "File exists"
  | .notDirectory => "Not a directory"
  | .isDirectory => "Is a directory"
  | .nameTooLong => "File name too long"
  | .unnameable => "embedded null byte"

end SystemFault

/-! ## Paths that can be asked for -/

/-- A name has at most 255 bytes. -/
def isLongName (name : String) : Bool := name.utf8ByteSize > 255

/-- A name with a NUL in it. -/
def holdsNul (name : String) : Bool := name.toList.contains '\x00'

namespace Path

/-- Why a path cannot be asked for, whatever files there are: a NUL in it, or 4096 bytes or
more. -/
def fault? (p : Path) : Option SystemFault :=
  if p.parts.any holdsNul then some .unnameable
  else if (toString p).utf8ByteSize ≥ 4096 then some .nameTooLong
  else none

/-- The path up to the first component that is too long for a name, if there is one. -/
def throughLongName? (p : Path) : Option Path :=
  let fitting := (p.parts.takeWhile fun part => !isLongName part).length
  if fitting < p.parts.length then some { p with parts := p.parts.take (fitting + 1) } else none

end Path

/-- A file with its bytes, or a directory with its entries. -/
inductive FileTree
  | file (content : List UInt8)
  | directory (entries : List (String × FileTree))

namespace FileTree

/-- A directory without entries. -/
def empty : FileTree := .directory []

/-- The tree is a directory. -/
def isDirectory : FileTree → Bool
  | .directory _ => true
  | .file _ => false

/-- The tree at the end of a walk. The directories the walk came through are given, the nearest
first; above the topmost there is nothing. -/
def walk (above : List FileTree) (here : FileTree) : List String → Except SystemFault FileTree
  | [] => .ok here
  | part :: parts =>
    match here with
    | .file _ => .error .notDirectory
    | .directory entries =>
      if part == ".." then
        match above with
        | [] => .error .notFound
        | parent :: above => walk above parent parts
      else if isLongName part then .error .nameTooLong
      else
        match entries.lookup part with
        | none => .error .notFound
        | some entry => walk (here :: above) entry parts

/-- The tree at a path. -/
def find (t : FileTree) (p : Path) : Except SystemFault FileTree :=
  match p.fault? with
  | some fault => .error fault
  | none => walk [] t p.parts

/-- The content of the file at a path. -/
def read (t : FileTree) (p : Path) : Except SystemFault (List UInt8) :=
  match t.find p with
  | .error e => .error e
  | .ok (.directory _) => .error .isDirectory
  | .ok (.file content) => .ok content

/-- There is a directory at the path. -/
def hasDirectory (t : FileTree) (p : Path) : Bool :=
  match t.find p with
  | .ok found => found.isDirectory
  | .error _ => false

/-- There is a file or directory at the path. -/
def has (t : FileTree) (p : Path) : Bool := (t.find p).toBool

/-! ## Listing -/

mutual

/-- The components of every file below a tree. -/
def filesBelow : FileTree → List (List String)
  | .file _ => [[]]
  | .directory entries => filesIn entries

/-- The components of every file below some entries. -/
def filesIn : List (String × FileTree) → List (List String)
  | [] => []
  | (name, entry) :: entries => (filesBelow entry).map (name :: ·) ++ filesIn entries

end

/-- The components of every file below a directory; a file has none below it. -/
def files : FileTree → List (List String)
  | .file _ => []
  | .directory entries => filesIn entries

/-! ## Changing -/

/-- The entries with the one of the given name set or, with nothing given, removed. -/
def setEntry (name : String) (entry : Option FileTree) :
    List (String × FileTree) → List (String × FileTree)
  | [] => (entry.map fun t => (name, t)).toList
  | (other, old) :: entries =>
    if other == name then (entry.map fun t => (name, t)).toList ++ entries
    else (other, old) :: setEntry name entry entries

/-- The tree with what is at the end of the components set or removed; directories on the way are
made, and a file on the way gives way to one. -/
def set (entry : Option FileTree) : List String → FileTree → FileTree
  | [], t => entry.getD t
  | part :: parts, t =>
    -- a file in the way gives way to a directory
    let entries := match t with
      | .directory entries => entries
      | .file _ => []
    if parts.isEmpty then .directory (setEntry part entry entries)
    else
      let below := (entries.lookup part).getD empty
      .directory (setEntry part (some (set entry parts below)) entries)

/-- The tree with a file written at a path. -/
def put (t : FileTree) (p : Path) (content : List UInt8) : FileTree :=
  set (some (.file content)) p.resolved.parts t

/-- The tree without what is at a path. -/
def remove (t : FileTree) (p : Path) : FileTree :=
  if t.has p then set none p.resolved.parts t else t

/-- The tree with a directory at a path, which may be there already. -/
def putDirectory (t : FileTree) (p : Path) : FileTree :=
  if t.hasDirectory p then t else set (some empty) p.resolved.parts t

/-- The tree with a directory at the path and all directories above it. Fails at the path if a file
is there or above it, and at the first directory to be made that has too long a name. -/
def makeDirectories (t : FileTree) (p : Path) : Except (SystemFault × Path) FileTree :=
  match t.find p with
  | .ok (.directory _) => .ok t
  | .ok (.file _) => .error (.alreadyExists, p)
  | .error .notFound =>
    match p.throughLongName? with
    | some long => .error (.nameTooLong, long)
    | none => .ok (t.putDirectory p)
  | .error e => .error (e, p)

/-- The tree with a text file written at a path whose directory is there. -/
def write (t : FileTree) (p : Path) (content : List UInt8) : Except SystemFault FileTree :=
  match t.find p with
  | .ok (.directory _) => .error .isDirectory
  | .ok (.file _) | .error .notFound => .ok (t.put p content)
  | .error e => .error e

end FileTree

end Assay
