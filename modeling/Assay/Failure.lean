import Assay.Event
import Assay.Report.Fault
import Assay.Rubric.Fault
import Assay.Source.Fault

/-!
# Failures

Everything that can end a run before its answer, by cause, and computations that report events on
their way to an answer or a failure.
-/

namespace Assay

/-- What is wrong with a number of workers. -/
inductive WorkersFault
  | notInteger (given : String)
  | tooFew
  deriving DecidableEq, Repr

/-- Why a run fails. -/
inductive Failure
  | source (path : Option Path) (error : Source.SourceError)
  | unreadableSource (path : Path) (fault : SystemFault)
  | missingRepository (directory : Path)
  | rubric (error : RubricError)
  | report (error : Report.ReportError)
  /-- No counting rule gives the size of the category. -/
  | unruled (category : Category)
  /-- A category was asked for by a name that none has. -/
  | unknownCategory (name : String)
  /-- The number of workers is wrong where it was asked for directly. -/
  | workers (fault : WorkersFault)
  /-- The number of workers is wrong in the environment. -/
  | environmentWorkers (fault : WorkersFault)
  | accident (what : Accident)
  /-- A file or directory that was named is not there. -/
  | absent (label : String) (path : Path)

/-- The variable of the environment that gives the number of workers. -/
def workersVariable : String := "GRADESTYLE_JOBS"

/-- The wording of a wrong number of workers. -/
def WorkersFault.message : WorkersFault → String
  | .notInteger given => "must be an integer, got " ++ Text.quoted given
  | .tooFew => "jobs must be at least 1"

/-- The account of a failure. -/
def Failure.account : Failure → Account
  | .source path error => error.account path
  | .unreadableSource path fault =>
    .unreadable path fault
      ⟨.source, .unreadableSource,
        Diagnostic.placed (some path) 0 ("cannot read file: " ++ fault.message)⟩
  | .missingRepository directory =>
    .diagnosed ⟨.analysis, .missingRepository,
      "repository directory not found: " ++ toString directory⟩
  | .rubric error => error.account
  | .report error => error.account
  | .unruled category =>
    .diagnosed ⟨.configuration, .unknownCategory,
      "no normalisation rule for category " ++ category.displayName⟩
  | .unknownCategory name => .plain .configuration ("unknown category " ++ Text.quoted name)
  | .workers fault => .plain .configuration fault.message
  | .environmentWorkers (.notInteger given) =>
    .plain .configuration (workersVariable ++ " " ++ (WorkersFault.notInteger given).message)
  | .environmentWorkers .tooFew =>
    .plain .configuration (workersVariable ++ ": " ++ WorkersFault.tooFew.message)
  | .accident what => .accident what
  | .absent label path => .absent label path

/-! ## Logged computations -/

/-- What a computation reported and how it ended. -/
structure Logged (α : Type) where
  events : List Event
  result : Except Failure α

namespace Logged

variable {α β : Type}

/-- An answer without events. -/
protected def pure (a : α) : Logged α := ⟨[], .ok a⟩

/-- One computation and then another; what the first reported stays. -/
protected def bind (x : Logged α) (f : α → Logged β) : Logged β :=
  match x.result with
  | .error e => ⟨x.events, .error e⟩
  | .ok a => ⟨x.events ++ (f a).events, (f a).result⟩

instance : Monad Logged where
  pure := Logged.pure
  bind := Logged.bind

/-- A failure without events. -/
def fail (failure : Failure) : Logged α := ⟨[], .error failure⟩

/-- A result without events. -/
def lift (result : Except Failure α) : Logged α := ⟨[], result⟩

/-- Reports events. -/
def tell (events : List Event) : Logged Unit := ⟨events, .ok ()⟩

@[simp] theorem result_pure (a : α) : (pure a : Logged α).result = .ok a := rfl

@[simp] theorem result_tell (events : List Event) : (tell events).result = .ok () := rfl

/-- Events do not matter to the result. -/
@[simp] theorem result_bind (x : Logged α) (f : α → Logged β) :
    (x >>= f).result = x.result.bind fun a => (f a).result := by
  show (Logged.bind x f).result = _
  cases h : x.result <;> simp [Logged.bind, Except.bind, h]

end Logged

end Assay
