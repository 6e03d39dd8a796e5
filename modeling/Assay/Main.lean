import Assay.CommandLine.Run

/-!
# The program

Reads what a command line names from the disk, runs it and carries out what the run decided.
-/

namespace Assay

open CommandLine

/-- A file or directory as it is on the disk. Whatever cannot be read is taken for empty. -/
partial def copyEntry (entry : IO.FS.DirEntry) : IO (String × FileTree) := do
  if ← entry.path.isDir then
    let found ← try entry.path.readDir catch _ => pure #[]
    return (entry.fileName, .directory (← found.toList.mapM copyEntry))
  else
    let content ← try IO.FS.readBinFile entry.path catch _ => pure ByteArray.empty
    return (entry.fileName, .file content.toList)

/-- The tree with the nearest thing that is at a path or above it. This decides why a file is not
there, and whether one can be written. -/
partial def copyAbove (tree : FileTree) (path : Path) : IO FileTree := do
  let here := (← IO.currentDir) / toString path
  if tree.has path then return tree
  else if ← here.isDir then return tree.putDirectory path
  else if ← here.pathExists then return tree.put path []
  else if path.parts.isEmpty then return tree
  else copyAbove tree path.parent

/-- The tree with what is at a path on the disk. -/
def copyPath (tree : FileTree) (path : Path) : IO FileTree := do
  let here := (← IO.currentDir) / toString path
  if !(← here.pathExists) then copyAbove tree path
  else if ← here.isDir then
    let found ← try here.readDir catch _ => pure #[]
    let entries ← found.toList.mapM copyEntry
    return .set (some (.directory entries)) path.parts tree
  else
    let content ← try IO.FS.readBinFile here catch _ => pure ByteArray.empty
    return tree.put path content.toList

/-- The paths a request reads. -/
def readPaths (s : Surroundings) (request : Request) : List Path :=
  let given := match request with
    | .score r => r.repository :: r.configuration :: r.violations ++ r.checkstyle
    | .sizes r => [r.repository]
    | .categories => []
  given.filterMap fun name => (s.resolve name).toOption

/-- The surroundings with what a request needs from the disk. -/
def loadSurroundings (s : Surroundings) (request : Request) (d : Delivery) : IO Surroundings := do
  let tree ← match d.output.bind fun given => (s.resolve given).toOption with
    | some path => copyAbove s.tree path
    | none => pure s.tree
  return { s with tree := ← (readPaths s request).foldlM copyPath tree }

/-- The variables of the environment that a run looks at. -/
def readEnvironment : IO (List (String × String)) := do
  let read (name : String) : IO (List (String × String)) := do
    match ← IO.getEnv name with
    | some given => return [(name, given)]
    | none => return []
  return (← read workersVariable) ++ (← read "NO_COLOR") ++ (← read "HOME")

/-- The accounts that a list of accounts tells of, a line each with the account's name first and its
home directory sixth. -/
def accountsOf (lines : List String) : List (String × String) :=
  lines.filterMap fun line =>
    match (Text.splitAt ':' line.toList).map String.ofList with
    | name :: _ :: _ :: _ :: _ :: home :: _ => some (name, home)
    | _ => none

/-- The accounts of the system. -/
def readAccounts : IO (List (String × String)) := do
  let lines ← try IO.FS.lines "/etc/passwd" catch _ => pure #[]
  return accountsOf lines.toList

/-- Tells an event on standard error. -/
def tellEvent (e : Event) : IO Unit := IO.eprintln ("[" ++ e.level.name ++ "] " ++ e.message)

/-- Carries out what a run decided. -/
def finish (ending : Ending) : IO UInt32 := do
  ending.events.forM tellEvent
  IO.print ending.printed
  match ending.output with
  | none => return ending.exitCode.toUInt32
  | some output =>
    try
      IO.FS.createDirAll (toString output.path.parent)
      IO.FS.writeFile (toString output.path) output.text
      return ending.exitCode.toUInt32
    catch e =>
      tellEvent ⟨.error, toString e⟩
      return 2

end Assay

open Assay CommandLine in
/-- Runs the program. -/
def main (arguments : List String) : IO UInt32 := do
  match Invocation.read arguments with
  | .error halt =>
    match halt with
    | .usage e => IO.eprintln e.text
    | .option _ _ => pure ()
    finish halt.ending
  | .ok invocation =>
    let terminal ← (← IO.getStdout).isTty
    let directory := Path.ofString (toString (← IO.currentDir))
    let s : Surroundings := ⟨.empty, directory, ← readEnvironment, ← readAccounts, terminal⟩
    match invocation.command with
    | none =>
      IO.eprint usageText
      finish (invocation.run s)
    | some (request, d) => finish (invocation.run (← loadSurroundings s request d))
