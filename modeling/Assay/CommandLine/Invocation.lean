import Assay.CommandLine.Grammar

/-!
# Invocations

The commands of the program with their options, and what a command line asks for. Options of the
program stand before the name of a command; everything after it belongs to the command.
-/

namespace Assay.CommandLine

/-! ## Options -/

/-- The name of the program. -/
def programName : String := "gradestyle"

/-- The version of the program. -/
def programVersion : String := "0.1.0"

/-- Asks how the program or a command is called. -/
def helpOption : OptionRule := ⟨["-h", "--help"], .halt, false⟩

/-- Asks for the version of the program. -/
def versionOption : OptionRule := ⟨["--version"], .halt, false⟩

/-- Asks for more events to be told; given twice, for all of them. -/
def verboseOption : OptionRule := ⟨["-v", "--verbose"], .nothing, false⟩

/-- Names the file of the rubric. -/
def configurationOption : OptionRule := ⟨["-c", "--config"], .text, true⟩

/-- Names a report of violations; there may be several. -/
def violationsOption : OptionRule := ⟨["--violations"], .text, false⟩

/-- Names a report of violations in the form of Checkstyle; there may be several. -/
def checkstyleOption : OptionRule := ⟨["--checkstyle"], .text, false⟩

/-- Asks for the counts behind the scores. -/
def detailsOption : OptionRule := ⟨["--details"], .nothing, false⟩

/-- Refuses colour. -/
def noColourOption : OptionRule := ⟨["--no-color"], .nothing, false⟩

/-- Names the file for the answer; a dash stands for standard output. -/
def outputOption : OptionRule := ⟨["-o", "--output"], .text, false⟩

/-- Gives the number of workers. -/
def workersOption : OptionRule := ⟨["-j", "--jobs"], .integer, false⟩

/-- The option for the format of an answer; the first choice is taken where none is made. -/
def formatOption (among : List String) : OptionRule := ⟨["-f", "--format"], .choice among, false⟩

/-- The formats of scores. -/
def scoreFormats : List String := ["json", "table"]

/-- The formats of everything else. -/
def listFormats : List String := ["table", "json"]

/-! ## Commands -/

/-- Where an answer goes and whether it is data or a table. -/
structure Delivery where
  output : Option String
  asData : Bool
  deriving DecidableEq, Repr

/-- What the command `score` is asked for. -/
structure ScoreRequest where
  repository : String
  configuration : String
  violations : List String
  checkstyle : List String
  details : Bool
  noColour : Bool
  workers : Option Int
  deriving DecidableEq, Repr

/-- What the command `normalise` is asked for. -/
structure SizeRequest where
  repository : String
  categories : List String
  workers : Option Int
  deriving DecidableEq, Repr

/-- What a command is asked for. -/
inductive Request
  | score (request : ScoreRequest)
  | sizes (request : SizeRequest)
  | categories
  deriving DecidableEq, Repr

/-- A command line that was understood. Without a command there is nothing to do. -/
structure Invocation where
  verbosity : Nat
  command : Option (Request × Delivery)
  deriving DecidableEq, Repr

/-- The commands of the program. -/
inductive CommandName
  | score
  | normalise
  | categories
  deriving DecidableEq, Repr

namespace CommandName

/-- All commands. -/
def all : List CommandName := [.score, .normalise, .categories]

/-- The names of a command, the first of them in messages. -/
def spellings : CommandName → List String
  | .score => ["score"]
  | .normalise => ["normalise", "normalize"]
  | .categories => ["categories"]

/-- The command of a name. -/
def ofName? (name : String) : Option CommandName := all.find? (·.spellings.contains name)

/-- What a command accepts. -/
def grammar (c : CommandName) : Grammar :=
  let program := programName ++ " " ++ (c.spellings.head?.getD "")
  match c with
  | .score =>
    ⟨program,
      [helpOption, configurationOption, violationsOption, checkstyleOption, detailsOption,
        noColourOption, outputOption, formatOption scoreFormats, workersOption],
      [.one "REPO"]⟩
  | .normalise =>
    ⟨program, [helpOption, outputOption, formatOption listFormats, workersOption],
      [.one "REPO", .rest "CATEGORY"]⟩
  | .categories => ⟨program, [helpOption, outputOption, formatOption listFormats], []⟩

end CommandName

/-! ## Reading -/

namespace Arguments

/-- The texts an option was given, in order. -/
def texts (a : Arguments) (o : OptionRule) : List String :=
  a.settings.filterMap fun s =>
    match s.given with
    | .text text => if s.rule == o then some text else none
    | _ => none

/-- The integer an option was given last. -/
def integer? (a : Arguments) (o : OptionRule) : Option Int :=
  (a.settings.filterMap fun s =>
    match s.given with
    | .integer n => if s.rule == o then some n else none
    | _ => none).getLast?

/-- The option is there. -/
def has (a : Arguments) (o : OptionRule) : Bool := a.settings.any (·.rule == o)

/-- Where the answer goes, and in which of the formats. -/
def delivery (a : Arguments) (formats : List String) : Delivery :=
  let format := (a.texts (formatOption formats)).getLast?.or formats.head?
  ⟨(a.texts outputOption).getLast?, format == some "json"⟩

/-- What a command is asked for. -/
def request (a : Arguments) : CommandName → Request × Delivery
  | .score =>
    (.score
      { repository := (a.filled.flatten.head?).getD ""
        configuration := (a.texts configurationOption).getLast?.getD ""
        violations := a.texts violationsOption
        checkstyle := a.texts checkstyleOption
        details := a.has detailsOption
        noColour := a.has noColourOption
        workers := a.integer? workersOption },
      a.delivery scoreFormats)
  | .normalise =>
    (.sizes
      { repository := (a.filled.flatten.head?).getD ""
        categories := a.filled.flatten.tail
        workers := a.integer? workersOption },
      a.delivery listFormats)
  | .categories => (.categories, a.delivery listFormats)

end Arguments

/-- What the program accepts before the name of a command. -/
def programGrammar : Grammar := ⟨programName, [helpOption, versionOption, verboseOption], []⟩

/-- A fault in the arguments of the program. -/
def usageFault (fault : UsageFault) : Halt := .usage ⟨programName, fault⟩

/-- What a command is asked for, and the arguments that fit nowhere. -/
def readCommand (name : String) (arguments : List String) :
    Except Halt ((Request × Delivery) × List String) :=
  match CommandName.ofName? name with
  | none =>
    .error (usageFault (.notChoice "<command>" name (CommandName.all.flatMap (·.spellings))))
  | some c => do
    let found ← c.grammar.read arguments
    return (found.request c, found.extra)

/-- The invocation of arguments and what they are; the options of the program take no values, so
every one of them is an argument of its own. -/
def readProgram (verbosity : Nat) (extra : List String) :
    List (String × Mark) → Except Halt Invocation
  | [] => if extra.isEmpty then .ok ⟨verbosity, none⟩ else .error (usageFault (.unrecognized extra))
  | (_, .unknown text) :: more => readProgram verbosity (extra ++ [text]) more
  | (_, .known o short value) :: more =>
    match programGrammar.readOption o short value [] with
    | .error fault => .error (usageFault fault)
    | .ok (settings, _) =>
      match settings.find? (·.rule.taking == .halt) with
      | some halting => .error (.option programName halting.rule)
      | none => readProgram (verbosity + settings.length) extra more
  | (name, mark) :: more =>
    if mark == .separator && more.isEmpty then .error (usageFault (.unrecognized (extra ++ [name])))
    else do
      let (command, left) ← readCommand name (more.map (·.1))
      if (extra ++ left).isEmpty then return ⟨verbosity, some command⟩
      else throw (usageFault (.unrecognized (extra ++ left)))

/-- What a command line asks for. -/
def Invocation.read (arguments : List String) : Except Halt Invocation :=
  match programGrammar.marks arguments with
  | .error fault => .error (usageFault fault)
  | .ok marks => readProgram 0 [] (arguments.zip marks)

end Assay.CommandLine
