import Assay.Score
import Assay.Text.Layout

/-!
# Score tables

A table of category scores with aligned columns and a total, for a terminal. Where colour is wanted,
a full score is green, none at all is red, and anything between is yellow.
-/

namespace Assay

/-- The colours of a score. -/
inductive Colour
  | red
  | green
  | yellow
  deriving DecidableEq, Repr

namespace Colour

/-- The number of a colour in a terminal's control sequence. -/
def number : Colour → Nat
  | .red => 31
  | .green => 32
  | .yellow => 33

/-- The colour of a score. -/
def ofScore (score maxScore : Nat) : Colour :=
  if maxScore ≤ score then .green else if score == 0 then .red else .yellow

/-- A text in bold and in colour. -/
def paint (colour : Colour) (s : String) : String :=
  "\x1b[1m\x1b[" ++ toString colour.number ++ "m" ++ s ++ "\x1b[0m"

end Colour

namespace ScoreTable

/-- The line between parts of a table. -/
def rule : String := String.ofList (List.replicate 72 '=')

/-- One row: five columns and the score. -/
def row (category mode count size value score : String) : String :=
  "  " ++ Text.padRight 28 category ++ " " ++ Text.padRight 8 mode ++ " " ++
    Text.padLeft 6 count ++ " " ++ Text.padLeft 7 size ++ " " ++ Text.padLeft 6 value ++ "  " ++
    score

/-- A score out of the greatest one. -/
def fraction (score maxScore : Nat) : String := toString score ++ "/" ++ toString maxScore

/-- The row of a category. -/
def scoreRow (colour : Bool) (s : CategoryScore) : String :=
  let plain := fraction s.score s.maxScore
  row s.category.displayName s.mode.name (toString s.count) ((s.size.map toString).getD "-")
    (toString s.value) (if colour then (Colour.ofScore s.score s.maxScore).paint plain else plain)

/-- The table of several scores. -/
def render (colour : Bool) (scores : List CategoryScore) : String :=
  let total := fraction ((scores.map (·.score)).foldr (· + ·) 0)
    ((scores.map (·.maxScore)).foldr (· + ·) 0)
  String.intercalate "\n"
    ([rule, "STYLE SCORE REPORT", rule, row "category" "mode" "count" "size" "value" "score"] ++
      scores.map (scoreRow colour) ++ [rule, "  Total: " ++ total, rule])

end ScoreTable

end Assay
