import Assay.Failure

/-!
# Surroundings

What a run finds around it: files, the directory it starts in, variables and accounts. A path on a
command line starts in that directory, at the root, or at a home directory, which a first component
with a leading tilde names.
-/

namespace Assay.CommandLine

/-- What a run finds around it. -/
structure Surroundings where
  tree : FileTree
  /-- The directory that relative paths start from. -/
  directory : Path
  environment : List (String × String)
  /-- The home directories of accounts, by the account's name. -/
  accounts : List (String × String)
  /-- The answer is printed on a terminal. -/
  terminal : Bool

/-- The path of a home directory. One of slashes alone is the root, and one that itself starts
with a tilde is nowhere. -/
def homePath? (home : String) : Option Path :=
  match home.toList with
  | '~' :: _ => none
  | cs => if cs.all (· == '/') then some ⟨1, []⟩ else some (.ofString home)

namespace Surroundings

/-- The home directory after a tilde: with a name the account's, without one the run's own. -/
def home? (s : Surroundings) (name : List Char) : Option Path :=
  let known :=
    if name.isEmpty then s.environment.lookup "HOME" else s.accounts.lookup (String.ofList name)
  known.bind homePath?

/-- The path with a home directory in the place of a first component that names one. -/
def expandHome (s : Surroundings) (p : Path) : Except Accident Path :=
  match p.slashes, p.parts with
  | 0, first :: parts =>
    match first.toList with
    | '~' :: name =>
      if holdsNul first then .error (.system .unnameable p)
      else
        match s.home? name with
        | some home => .ok (home.below parts)
        | none => .error .unknownHome
    | _ => .ok p
  | _, _ => .ok p

/-- The full path that a text on the command line names. It starts at the one root, however many
slashes were given. -/
def resolve (s : Surroundings) (given : String) : Except Failure Path := do
  let p ← (s.expandHome (.ofString given)).mapError .accident
  if p.parts.any holdsNul then throw (.accident (.system .unnameable p))
  let full := (s.directory.join p).resolved
  return { full with slashes := min full.slashes 1 }

/-- The path of a file that has to be there. -/
def locate (s : Surroundings) (label given : String) : Logged Path := do
  let path ← Logged.lift (s.resolve given)
  match s.tree.find path with
  | .ok _ => return path
  | .error .nameTooLong => .fail (.accident (.system .nameTooLong path))
  | .error _ => .fail (.absent label path)

end Surroundings

end Assay.CommandLine
