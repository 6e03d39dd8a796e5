import Assay.Proofs.Reading
import Assay.Source.Body

/-!
# The declaration of a type in two steps

Whether a type is declared is told by the tokens ahead; the declaration itself is read by a parser of
its own here, which the places that declare types share.
-/

namespace Assay.Source

open Assay.Source.Parser

/-- Reads the header of a type behind its name, and its body. -/
def typeRest (nested : Construct → Parser Unit) (kind : DeclarationKind) : Parser Unit := do
  if kind == .recordType then
    skipOptionalTypeArguments
    discard parameters
  untilSees "\x7b" skip
  if kind == .enumType then enumBody nested else classBody nested

/-- Reads the declaration of a type, which starts with so many tokens before its name. -/
def typeFrom (nested : Construct → Parser Unit) (line : Nat) (ts : List Token)
    (kind : DeclarationKind) (length : Nat) : Parser Unit := do
  resumeAt (ts.drop length)
  let declared ← name
  declare kind declared.text line
  within ⟨declared.text, kind⟩ (typeRest nested kind)

theorem typeDeclaration_eq (nested : Construct → Parser Unit) (line : Nat) :
    typeDeclaration nested line = (do
      let ts ← ahead
      match typeKeyword? ts with
      | none => return false
      | some (kind, length) =>
        typeFrom nested line ts kind length
        return true) := by
  unfold typeDeclaration
  congr 1
  funext ts
  cases typeKeyword? ts with
  | none => rfl
  | some found => simp only [typeFrom, typeRest, bind_bind]

/-- A parser that gives nothing is not changed by giving nothing. -/
theorem bind_pure_unit (p : Parser Unit) : (p >>= fun _ => pure ()) = p := by
  funext s ts
  rw [bind_apply]
  cases p s ts with
  | error => rfl
  | ok r => simp

/-- A type declaration, or else something other. -/
theorem typeDeclaration_orElse (nested : Construct → Parser Unit) (line : Nat) (p : Parser Unit) :
    (do if !(← typeDeclaration nested line) then p) = (do
      let ts ← ahead
      match typeKeyword? ts with
      | none => p
      | some (kind, length) => typeFrom nested line ts kind length) := by
  rw [typeDeclaration_eq, bind_bind]
  congr 1
  funext ts
  cases typeKeyword? ts with
  | none => exact pure_then _ _
  | some found =>
    rw [bind_bind]
    exact bind_pure_unit _

end Assay.Source
