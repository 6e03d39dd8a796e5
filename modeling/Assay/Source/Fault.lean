import Assay.Accident

/-!
# Faults of a source file

Why a source file is not a program, and the line it shows on. A fault names the token it was found
at by its text, which is quoted when the fault is told. A program that is nested too deep for the
machine is not at fault.
-/

namespace Assay.Source

/-- Why a source is not a program. -/
inductive Fault
  | invalidToken (near : String)
  | unexpectedEnd
  | expected (wanted found : String)
  | expectedName (found : String)
  | expectedType (found : String)
  | expectedEither (first second found : String)
  | unbalancedCloser (closer : String)
  | unbalancedBrackets
  | unterminatedTypeArguments (before : String)
  /-- A loop made no progress; parsers are written so that this cannot happen. -/
  | stalled
  /-- One more construct was to be opened than there is room for. -/
  | exhausted
  deriving DecidableEq, Repr

namespace Fault

/-- The code a fault is reported under: a text without tokens, a file that ends too soon, or a token
that does not fit. What is not the fault of the text has a code of its own. -/
def code : Fault → ErrorCode
  | .invalidToken _ => .invalidToken
  | .unexpectedEnd | .unbalancedBrackets => .unexpectedEnd
  | .stalled | .exhausted => .internalError
  | _ => .unexpectedToken

/-- The wording of a fault. -/
def message : Fault → String
  | .invalidToken near => "invalid token near " ++ Text.quoted near
  | .unexpectedEnd => "unexpected end of file"
  | .expected wanted found =>
    "expected " ++ Text.quoted wanted ++ ", found " ++ Text.quoted found
  | .expectedName found => "expected identifier, found " ++ Text.quoted found
  | .expectedType found => "expected type declaration, found " ++ Text.quoted found
  | .expectedEither first second found =>
    "expected " ++ Text.quoted first ++ " or " ++ Text.quoted second ++ ", found " ++
      Text.quoted found
  | .unbalancedCloser closer => "unbalanced " ++ Text.quoted closer
  | .unbalancedBrackets => "unbalanced brackets"
  | .unterminatedTypeArguments before =>
    "unterminated type arguments before " ++ Text.quoted before
  | .stalled => "no progress"
  | .exhausted => Excess.construct.message

end Fault

/-- A fault and the line it is reported at. -/
structure SourceError where
  fault : Fault
  line : Nat
  deriving DecidableEq, Repr

/-- The diagnostic for a fault in the file at a path, or in a text that has none. -/
def SourceError.diagnostic (e : SourceError) (path : Option Path) : Diagnostic :=
  ⟨.source, e.fault.code, Diagnostic.placed path e.line e.fault.message⟩

/-- The account of a fault. A program that is nested too deep ends a run as an accident. -/
def SourceError.account (e : SourceError) (path : Option Path) : Account :=
  match e.fault with
  | .exhausted => .accident (.undecodable (.excess .construct))
  | _ => .diagnosed (e.diagnostic path)

end Assay.Source
