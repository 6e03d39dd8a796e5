import Assay.Source.Lexeme

/-!
# From text to tokens

The text of a source file is a sequence of lexemes; white space is dropped and every other lexeme is
a token with its lines. The reading stops at the first place where no lexical class fits.
-/

namespace Assay.Source

/-- No lexical class fits: the displayed text from there on, and its line. -/
structure InvalidToken where
  near : String
  line : Nat
  deriving DecidableEq, Repr

/-- How many characters of the text an error shows. -/
def snippetLength : Nat := 20

/-- The tokens of a text that starts on the given line. -/
def tokensFrom (line : Nat) (cs : List Char) : Except InvalidToken (List Token) :=
  if cs.isEmpty then .ok []
  else
    match _h : lexeme? cs with
    | none => .error ⟨String.ofList (Text.firstLine (cs.take snippetLength)), line⟩
    | some x =>
      let endLine := line + Text.lineFeeds x.text
      match tokensFrom endLine x.rest with
      | .error e => .error e
      | .ok tokens =>
        match x.kind with
        | none => .ok tokens
        | some kind => .ok (⟨kind, String.ofList x.text, line, endLine⟩ :: tokens)
termination_by cs.length
decreasing_by exact lexeme?_shorter _h

/-- The tokens of a source text, comments included. -/
def tokens (text : String) : Except InvalidToken (List Token) := tokensFrom 1 text.toList

end Assay.Source
