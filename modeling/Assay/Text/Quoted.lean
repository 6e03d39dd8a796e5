import Assay.Text.Printable
import Assay.Text.Surrogate

/-!
# Quoted text

How a message shows a text it was given: between single quotes, or between double quotes when the
text holds a single quote and no double one, with escapes for the backslash, for the quote in use
and for every character that cannot be printed.
-/

namespace Assay.Text

/-- The digit of a value below sixteen, in lower case. -/
def hexDigit (n : Nat) : Char :=
  if n < 10 then Char.ofNat ('0'.toNat + n) else Char.ofNat ('a'.toNat + (n - 10))

/-- The last `width` hexadecimal digits of a number. -/
def hexDigits : Nat → Nat → List Char
  | 0, _ => []
  | width + 1, n => hexDigits width (n / 16) ++ [hexDigit (n % 16)]

/-- The numeric escape of a character, in the shortest of the three widths that holds it. -/
def numericEscape (c : Char) : List Char :=
  let code := codePoint c
  if code ≤ 0xFF then '\\' :: 'x' :: hexDigits 2 code
  else if code ≤ 0xFFFF then '\\' :: 'u' :: hexDigits 4 code
  else '\\' :: 'U' :: hexDigits 8 code

/-- One character of a quoted text. -/
def escapeChar (quote c : Char) : List Char :=
  if c == quote || c == '\\' then ['\\', c]
  else if c == '\n' then ['\\', 'n']
  else if c == '\r' then ['\\', 'r']
  else if c == '\t' then ['\\', 't']
  else if isPrintable c then [c]
  else numericEscape c

/-- The quote for a text: double only if the text holds a single quote and no double one. -/
def quoteFor (cs : List Char) : Char :=
  if cs.contains '\'' && !cs.contains '"' then '"' else '\''

/-- The text between quotes, escaped. -/
def quoteChars (cs : List Char) : List Char :=
  quoteFor cs :: cs.flatMap (escapeChar (quoteFor cs)) ++ [quoteFor cs]

/-- The text between quotes, escaped. -/
def quoted (s : String) : String := String.ofList (quoteChars s.toList)

end Assay.Text
