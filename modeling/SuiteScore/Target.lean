import SuiteScore.Text.Decimal

/-! What the rules apply to, and the locations by which it is named. -/

namespace SuiteScore

open Text

/-- The kinds of targets that a rule can be about. -/
inductive TargetKind where
  | feature
  | scenario
  | step
  | hook
  | stepDefinition
deriving DecidableEq, Repr

def TargetKind.text : TargetKind → Text
  | feature => "Feature"
  | scenario => "Scenario"
  | step => "Step"
  | hook => "Hook"
  | stepDefinition => "StepDefinition"

/-- What all targets have: where they are declared, their name and their tags. -/
structure Target where
  location : Text
  name : Text
  tags : List Text
deriving DecidableEq, Repr

namespace Location

/-- The location of a line of a file: the path, a colon and the number of the line. -/
def ofLine (path : Text) (line : Nat) : Text :=
  path ++ ":" ++ ofNat line

/-- The path of a location. What follows the last colon is a line number only if it is made of
digits; otherwise it belongs to the path. -/
def path (location : Text) : Text :=
  match cutLast? ':' location with
  | some (before, after) => if after.all Char.isDigit then before else location
  | none => location

/-- The line of a location, or zero when it has none. -/
def line (location : Text) : Nat :=
  match cutLast? ':' location with
  | some (_, after) => (word? after).getD 0
  | none => 0

end Location

end SuiteScore
