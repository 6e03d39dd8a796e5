import Assay.CommandLine.Invocation
import Assay.CommandLine.Surroundings
import Assay.Json.Printer
import Assay.Report.Checkstyle
import Assay.Rubric.Reader
import Assay.ScoreTable

/-!
# Runs

A run of the program as a function: from a command line and its surroundings to what is printed,
what is reported, how the program ends and which file is left behind.
-/

namespace Assay.CommandLine

/-! ## Commands -/

/-- Reads several reports, each with the same reader. -/
def readReports (s : Surroundings) (label : String)
    (reader : FileTree → Path → Except Report.ReportError Report.Reading) :
    List String → Logged Violations
  | [] => pure []
  | given :: more => do
    let path ← s.locate label given
    let found ← Logged.lift ((reader s.tree path).mapError .report)
    .tell (found.events path)
    let others ← readReports s label reader more
    return found.violations ++ others

/-- The answer to `score`. Colour is for tables on a terminal that nobody refuses. -/
def scoreAnswer [Machine] (s : Surroundings) (r : ScoreRequest) (d : Delivery) : Logged String := do
  let configuration ← s.locate "configuration" r.configuration
  let rubric ← Logged.lift ((Rubric.ofFile s.tree configuration).mapError .rubric)
  let listed ← readReports s "violation report" Report.ofJsonFile r.violations
  let checked ← readReports s "checkstyle report" Report.ofCheckstyleFile r.checkstyle
  if r.violations.isEmpty && r.checkstyle.isEmpty then
    .tell [⟨.warning, "no violation reports given; every count is 0"⟩]
  let workers ← Logged.lift <| match r.workers with
    | some n => Workers.ofGiven n
    | none => Workers.ofEnvironment s.environment
  let directory ← s.locate "repository" r.repository
  let repository ← Logged.lift (Repository.locate s.tree directory)
  let scores ← rubric.grade s.tree repository (Workers.effective workers) (listed ++ checked)
  let printed := d.output.all (· == "-")
  let colour := !r.noColour && (s.environment.lookup "NO_COLOR").isNone && printed && s.terminal
  if !d.asData then return ScoreTable.render colour scores
  else if r.details then return Json.print (.array (scores.map (·.toJson)))
  else
    return Json.print
      (.object (scores.map fun score => (score.category.value, .integer score.score)))

/-- The categories of given names; all of them if none is given. -/
def chosenCategories (names : List String) : Except Failure (List Category) :=
  if names.isEmpty then .ok Category.all
  else
    names.mapM fun name =>
      match Category.ofName? name with
      | some c => .ok c
      | none => .error (.unknownCategory name)

/-- The answer to `normalise`. A category that is named twice is listed once. -/
def sizeAnswer (s : Surroundings) (r : SizeRequest) (d : Delivery) : Logged String := do
  let categories ← Logged.lift (chosenCategories r.categories)
  let workers ← Logged.lift <| match r.workers with
    | some n => .ok n
    | none => Workers.ofEnvironment s.environment
  let directory ← s.locate "repository" r.repository
  let repository ← Logged.lift (Repository.locate s.tree directory)
  let survey := Survey.start repository .utf8 (Workers.effective workers) Category.all
  let sizes ← (survey.allSizes s.tree categories.eraseDups).2
  if d.asData then
    return Json.print (.object (sizes.map fun (c, n) => (c.value, .integer n)))
  else
    return String.intercalate "\n" (sizes.map fun (c, n) =>
      Text.padRight 28 c.displayName ++ " " ++ Text.padLeft 8 (toString n))

/-- The rules of the kinds reported under a category, in order. -/
def sortedRules (c : Category) : List String :=
  ((ViolationKind.ofCategory c).map (·.rule)).mergeSort fun a b => a ≤ b

/-- The answer to `categories`. -/
def categoryAnswer (d : Delivery) : String :=
  if d.asData then
    Json.print (.array (Category.all.map fun c =>
      .object
        [("category", .string c.value), ("display_name", .string c.displayName),
          ("rules", .array ((sortedRules c).map .string))]))
  else
    String.intercalate "\n" (Category.all.flatMap fun c =>
      let names := Text.padRight 24 c.value ++ " " ++ Text.padRight 28 c.displayName
      (names ++ " " ++ c.rule.describe) :: (sortedRules c).map ("    " ++ ·))

/-- The answer to a request. -/
def answer [Machine] (s : Surroundings) (d : Delivery) : Request → Logged String
  | .score r => scoreAnswer s r d
  | .sizes r => sizeAnswer s r d
  | .categories => pure (categoryAnswer d)

/-! ## Delivery -/

/-- A text file that a run leaves behind. -/
structure Output where
  path : Path
  text : String
  deriving DecidableEq, Repr

/-- Where an answer ends up: printed, or in a file whose directories are made. -/
def deliver (s : Surroundings) (d : Delivery) (text : String) :
    Except Failure (String × Option Output) :=
  let line := if text.endsWith "\n" then text else text ++ "\n"
  match d.output.filter (· != "-") with
  | none => .ok (line, none)
  | some given =>
    match s.resolve given with
    | .error failure => .error failure
    | .ok path =>
      match s.tree.makeDirectories path.parent with
      | .error (fault, place) => .error (.accident (.system fault place))
      | .ok tree =>
        match tree.write path line.toUTF8.toList with
        | .error fault => .error (.accident (.system fault path))
        | .ok _ => .ok ("", some ⟨path, line⟩)

/-- How a run ends. -/
structure Ending where
  exitCode : Nat
  printed : String
  events : List Event
  output : Option Output
  deriving DecidableEq, Repr

/-- The least level of events that are told. -/
def listeningLevel (verbosity : Nat) : Level :=
  match verbosity with
  | 0 => .warning
  | 1 => .info
  | _ => .debug

/-- The run of a command. -/
def runCommand [Machine] (s : Surroundings) (verbosity : Nat) (request : Request) (d : Delivery) :
    Ending :=
  let answered := answer s d request
  let ended := answered.result.bind (deliver s d)
  let (exitCode, last) := match ended with
    | .ok _ => (0, [])
    | .error failure => (failure.account.exitCode, [Event.mk .error failure.account.report])
  let (printed, output) := match ended with
    | .ok delivered => delivered
    | .error _ => ("", none)
  ⟨exitCode, printed, heardAt (listeningLevel verbosity) (answered.events ++ last), output⟩

/-- The run of a command line that was understood; without a command it fails. -/
def Invocation.run [Machine] (s : Surroundings) (i : Invocation) : Ending :=
  match i.command with
  | none => ⟨2, "", [], none⟩
  | some (request, d) => runCommand s i.verbosity request d

/-- The line that tells the version. -/
def versionLine : String := programName ++ " " ++ programVersion ++ "\n"

/-- How to call the program. -/
def usageText : String :=
  "usage: " ++ programName ++ " [-h] [--version] [-v] <command> ...\n\ncommands: " ++
    String.intercalate ", " (CommandName.all.flatMap (·.spellings)) ++ "\n"

/-- What the program prints when its reading of the arguments ends early, and how it ends. -/
def Halt.ending : Halt → Ending
  | .usage _ => ⟨2, "", [], none⟩
  | .option _ rule => ⟨0, if rule == versionOption then versionLine else usageText, [], none⟩

end Assay.CommandLine
