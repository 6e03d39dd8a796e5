import Assay.Text.Integer
import Assay.Text.Quoted

/-!
# Options and arguments

A command declares its options and the places for its plain arguments; reading a command line fills
them in. A long option may be cut short as long as it stays unique and may carry its value after an
equals sign; a short one may carry its value directly, and short options without values may share a
dash. Two dashes alone end the options. Faults show in reading order, what is missing last of all.
-/

namespace Assay.CommandLine

/-- What an option takes. -/
inductive Taking
  | nothing
  | text
  | integer
  | choice (among : List String)
  /-- The option takes nothing and ends the reading at once. -/
  | halt
  deriving DecidableEq, Repr

/-- The option takes a value. -/
def Taking.takesValue : Taking → Bool
  | .nothing | .halt => false
  | _ => true

/-- An option with its spellings, the short ones first. -/
structure OptionRule where
  spellings : List String
  taking : Taking
  required : Bool
  deriving DecidableEq, Repr

/-- The name of an option in messages. -/
def OptionRule.label (o : OptionRule) : String := String.intercalate "/" o.spellings

/-- A place for plain arguments: exactly one, or all that are left. -/
inductive Place
  | one (label : String)
  | rest (label : String)
  deriving DecidableEq, Repr

/-- The name of a place in messages. -/
def Place.label : Place → String
  | .one label => label
  | .rest label => label

/-- What a command accepts. -/
structure Grammar where
  program : String
  options : List OptionRule
  places : List Place
  deriving DecidableEq, Repr

/-! ## Faults -/

/-- What is wrong with a command line. -/
inductive UsageFault
  | ambiguous (given : String) (candidates : List String)
  | ignoredValue (label value : String)
  | missingValue (label : String)
  | notInteger (label value : String)
  | notChoice (label value : String) (among : List String)
  | missing (labels : List String)
  | unrecognized (arguments : List String)
  deriving DecidableEq, Repr

/-- The wording of a fault. -/
def UsageFault.message : UsageFault → String
  | .ambiguous given candidates =>
    "ambiguous option: " ++ given ++ " could match " ++ String.intercalate ", " candidates
  | .ignoredValue label value =>
    "argument " ++ label ++ ": ignored explicit argument " ++ Text.quoted value
  | .missingValue label => "argument " ++ label ++ ": expected one argument"
  | .notInteger label value => "argument " ++ label ++ ": invalid int value: " ++ Text.quoted value
  | .notChoice label value among =>
    "argument " ++ label ++ ": invalid choice: " ++ Text.quoted value ++ " (choose from " ++
      String.intercalate ", " (among.map Text.quoted) ++ ")"
  | .missing labels => "the following arguments are required: " ++ String.intercalate ", " labels
  | .unrecognized arguments => "unrecognized arguments: " ++ String.intercalate " " arguments

/-- A fault in the arguments of a program or of one of its commands. -/
structure UsageError where
  program : String
  fault : UsageFault
  deriving DecidableEq, Repr

/-- The line that tells a fault. -/
def UsageError.text (e : UsageError) : String := e.program ++ ": error: " ++ e.fault.message

/-- Why a reading ends early: at a fault, or at an option that ends it. -/
inductive Halt
  | usage (error : UsageError)
  | option (program : String) (rule : OptionRule)
  deriving DecidableEq, Repr

/-! ## Single arguments -/

/-- What one argument is. -/
inductive Mark
  | plain (text : String)
  /-- Two dashes, after which everything is plain. -/
  | separator
  | unknown (text : String)
  /-- An option, spelled short or long, with the value it carries. -/
  | known (rule : OptionRule) (short : Bool) (value : Option String)
  deriving DecidableEq, Repr

/-- The argument is an option, known or not. -/
def Mark.isOption : Mark → Bool
  | .unknown _ | .known _ _ _ => true
  | _ => false

/-- The text of an argument that is no known option. -/
def Mark.text : Mark → String
  | .plain text => text
  | .unknown text => text
  | .separator => "--"
  | .known _ _ _ => ""

/-- The spelling starts with a single dash. -/
def isShort (spelling : List Char) : Bool := spelling[1]? != some '-'

/-- The text before the first equals sign and the one after it. -/
def splitValue? (cs : List Char) : Option (List Char × List Char) :=
  match cs.dropWhile (· != '=') with
  | _ :: value => some (cs.takeWhile (· != '='), value)
  | [] => none

/-- All pairs of an option and one of its spellings. -/
def Grammar.spellings (g : Grammar) : List (OptionRule × String) :=
  g.options.flatMap fun o => o.spellings.map fun spelling => (o, spelling)

/-- The option with exactly this spelling. -/
def Grammar.option? (g : Grammar) (spelling : List Char) : Option OptionRule :=
  g.options.find? fun o => o.spellings.any (·.toList == spelling)

/-- The options an argument can stand for that is no exact spelling: long ones that it begins, or
the short one that its first letter is. Each comes with its spelling and the value carried. -/
def Grammar.candidates (g : Grammar) (cs : List Char) :
    List (OptionRule × String × Option (List Char)) :=
  if isShort cs then
    (g.spellings.filter fun (_, spelling) => spelling.toList == cs.take 2).map
      fun (o, spelling) => (o, spelling, some (cs.drop 2))
  else
    let (beginning, value) := match splitValue? cs with
      | some (beginning, value) => (beginning, some value)
      | none => (cs, none)
    (g.spellings.filter fun (_, spelling) => beginning.isPrefixOf spelling.toList).map
      fun (o, spelling) => (o, spelling, value)

/-- The text after a dash is a number: digits, or digits around a point with some after it. -/
def isNumber (cs : List Char) : Bool :=
  let cs := if cs.getLast? == some '\n' then cs.dropLast else cs
  let isDigit (c : Char) : Bool := (Text.digitValue? c).isSome
  match cs.dropWhile isDigit with
  | [] => !cs.isEmpty
  | '.' :: digits => !digits.isEmpty && digits.all isDigit
  | _ => false

/-- What an argument is that does not follow two dashes and is not two dashes itself. -/
def Grammar.mark (g : Grammar) (argument : String) : Except UsageFault Mark :=
  let cs := argument.toList
  let known (o : OptionRule) (spelling : List Char) (value : Option (List Char)) : Mark :=
    .known o (isShort spelling) (value.map String.ofList)
  if cs.head? != some '-' || cs.length == 1 then .ok (.plain argument)
  else
    match g.option? cs with
    | some o => .ok (known o cs none)
    | none =>
      match (splitValue? cs).bind fun (name, value) => (g.option? name).map (·, name, value) with
      | some (o, name, value) => .ok (known o name (some value))
      | none =>
        match g.candidates cs with
        | [(o, spelling, value)] => .ok (known o spelling.toList value)
        | [] =>
          if isNumber cs.tail || cs.contains ' ' then .ok (.plain argument)
          else .ok (.unknown argument)
        | many => .error (.ambiguous argument (many.map (·.2.1)))

/-- What the arguments are. -/
def Grammar.marks (g : Grammar) : List String → Except UsageFault (List Mark)
  | [] => .ok []
  | argument :: more =>
    if argument == "--" then .ok (.separator :: more.map .plain)
    else do
      let mark ← g.mark argument
      let marks ← g.marks more
      return mark :: marks

/-! ## Reading options -/

/-- What an option was given. -/
inductive Given
  | nothing
  | text (s : String)
  | integer (n : Int)
  deriving DecidableEq, Repr

/-- An option with what it was given. -/
structure Setting where
  rule : OptionRule
  given : Given
  deriving DecidableEq, Repr

/-- The setting of an option that takes a value. -/
def OptionRule.set (o : OptionRule) (value : String) : Except UsageFault Setting :=
  match o.taking with
  | .integer =>
    match Text.integer? value.toList with
    | some n => .ok ⟨o, .integer n⟩
    | none => .error (.notInteger o.label value)
  | .choice among =>
    if among.contains value then .ok ⟨o, .text value⟩ else .error (.notChoice o.label value among)
  | _ => .ok ⟨o, .text value⟩

/-- The setting of an option that carries no value, and the arguments after it. A value it takes is
the next argument. -/
def OptionRule.take (o : OptionRule) (rest : List Mark) :
    Except UsageFault (List Setting × List Mark) :=
  if o.taking.takesValue then
    match rest with
    | .plain v :: after => (o.set v).map fun setting => ([setting], after)
    | _ => .error (.missingValue o.label)
  else .ok ([⟨o, .nothing⟩], rest)

/-- The settings of short options that share a dash, given the letters after the first one. An
option that takes a value takes the letters that are left. -/
def Grammar.cluster (g : Grammar) (rest : List Mark) (o : OptionRule) :
    List Char → Except UsageFault (List Setting × List Mark)
  | [] => .error (.ignoredValue o.label "")
  | c :: cs =>
    if o.taking.takesValue then
      (o.set (String.ofList (c :: cs))).map fun setting => ([setting], rest)
    else
      match g.option? ['-', c] with
      | none => .error (.ignoredValue o.label (String.ofList (c :: cs)))
      | some next => do
        let (settings, after) ← if cs.isEmpty then next.take rest else g.cluster rest next cs
        return (⟨o, .nothing⟩ :: settings, after)

/-- The settings of an option with the value it carries, if it carries one, and the arguments after
them. -/
def Grammar.readOption (g : Grammar) (o : OptionRule) (short : Bool) (value : Option String)
    (rest : List Mark) : Except UsageFault (List Setting × List Mark) :=
  match value with
  | none => o.take rest
  | some v =>
    if o.taking.takesValue then (o.set v).map fun setting => ([setting], rest)
    else if short then g.cluster rest o v.toList
    else .error (.ignoredValue o.label v)

/-! ## Filling places -/

/-- The first plain argument, with two dashes before or after it left out. -/
def takeOne? : List Mark → Option (String × List Mark)
  | .separator :: .plain s :: rest => some (s, rest)
  | .plain s :: .separator :: rest => some (s, rest)
  | .plain s :: rest => some (s, rest)
  | _ => none

/-- Fills places with plain arguments up to the next option: what each place got, the places left
and the arguments left. -/
def fillPlaces : List Place → List Mark → List (List String) × List Place × List Mark
  | [], marks => ([], [], marks)
  | .one label :: places, marks =>
    match takeOne? marks with
    | none => ([], .one label :: places, marks)
    | some (s, rest) =>
      let (filled, left, after) := fillPlaces places rest
      ([s] :: filled, left, after)
  | .rest _ :: places, marks =>
    let texts := (marks.takeWhile (!·.isOption)).map (·.text)
    let (filled, left, after) := fillPlaces places (marks.dropWhile (!·.isOption))
    (texts.erase "--" :: filled, left, after)

/-- What a command line gives to a command. -/
structure Arguments where
  settings : List Setting
  filled : List (List String)
  /-- The arguments that fit nowhere. -/
  extra : List String
  deriving DecidableEq, Repr

/-- The reading of a command's arguments, with the places left at its end. The budget bounds the
number of steps. -/
def Grammar.readMarks (g : Grammar) :
    (budget : Nat) → List Place → List Mark → Except Halt (Arguments × List Place)
  | 0, places, marks => .ok (⟨[], [], marks.map (·.text)⟩, places)
  | budget + 1, places, marks =>
    match marks with
    | [] => .ok (⟨[], [], []⟩, places)
    | .unknown text :: rest => do
      let (found, left) ← g.readMarks budget places rest
      return ({ found with extra := text :: found.extra }, left)
    | .known o short value :: rest =>
      match g.readOption o short value rest with
      | .error fault => .error (.usage ⟨g.program, fault⟩)
      | .ok (settings, after) =>
        match settings.find? (·.rule.taking == .halt) with
        | some halting => .error (.option g.program halting.rule)
        | none => do
          let (found, left) ← g.readMarks budget places after
          return ({ found with settings := settings ++ found.settings }, left)
    | marks => do
      let (filled, places, rest) := fillPlaces places marks
      let extra := (rest.takeWhile (!·.isOption)).map (·.text)
      let (found, left) ← g.readMarks budget places (rest.dropWhile (!·.isOption))
      return (⟨found.settings, filled ++ found.filled, extra ++ found.extra⟩, left)

/-- The arguments of a command. Everything it requires is there. -/
def Grammar.read (g : Grammar) (arguments : List String) : Except Halt Arguments :=
  match g.marks arguments with
  | .error fault => .error (.usage ⟨g.program, fault⟩)
  | .ok marks =>
    match g.readMarks (marks.length + 1) g.places marks with
    | .error halt => .error halt
    | .ok (found, left) =>
      let unset := g.options.filter fun o => o.required && !found.settings.any (·.rule == o)
      let missing := left.map (·.label) ++ unset.map (·.label)
      if missing.isEmpty then .ok found else .error (.usage ⟨g.program, .missing missing⟩)

end Assay.CommandLine
