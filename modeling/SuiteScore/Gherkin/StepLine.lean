import SuiteScore.Gherkin.Keyword

/-! Lines of steps and of example rows as they stand in a file, also when they are commented
out. -/

namespace SuiteScore.Gherkin

open Text

/-- A line from its first character that is not blank, without one comment sign there and the
blanks after the sign. -/
def uncommented (line : Text) : Text :=
  match trimStart line with
  | '#' :: rest => trimStart rest
  | other => other

def isCommented (line : Text) : Bool :=
  (trimStart line).head? == some '#'

def stepKeyword? (line : Text) : Option StepKeyword :=
  match StepKeyword.open? (uncommented line) with
  | some (keyword, c :: _) => if isBlank c then some keyword else none
  | _ => none

def isStepLine (line : Text) : Bool :=
  (stepKeyword? line).isSome

def stepLines (lines : List Text) : List Text :=
  lines.filter isStepLine

/-- Whether a line is a row between two bars, commented out or not. The cells hold no line feed. -/
def isExampleRow (line : Text) : Bool :=
  match uncommented line with
  | '|' :: rest =>
    let inner := trimEnd rest
    inner.getLast? == some '|' && !inner.dropLast.contains '\n'
  | _ => false

end SuiteScore.Gherkin
