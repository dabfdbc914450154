import SuiteScore.Text.Blank

/-! Keywords of feature files, each with the text it is written as. -/

namespace SuiteScore.Gherkin

/-- What a step is for, by the keyword that opens it. -/
inductive StepKeyword where
  | context
  | action
  | outcome
  | conjunction
  | contrast
  | asterisk
deriving DecidableEq, Repr

namespace StepKeyword

def text : StepKeyword → Text
  | context => "Given"
  | action => "When"
  | outcome => "Then"
  | conjunction => "And"
  | contrast => "But"
  | asterisk => "*"

/-- Every step keyword; none is the beginning of another. -/
def all : List StepKeyword :=
  [context, action, outcome, conjunction, contrast, asterisk]

def open? (line : Text) : Option (StepKeyword × Text) :=
  all.findSome? fun keyword => (keyword.text.isPrefixOf? line).map (keyword, ·)

end StepKeyword

/-- The parts of a feature that hold steps. -/
inductive ElementKind where
  | background
  | scenario
  | outline
deriving DecidableEq, Repr

/-- The keywords that open an element. -/
inductive ElementKeyword where
  | background
  | scenarioOutline
  | scenarioTemplate
  | scenario
  | example
deriving DecidableEq, Repr

namespace ElementKeyword

def text : ElementKeyword → Text
  | background => "Background"
  | scenarioOutline => "Scenario Outline"
  | scenarioTemplate => "Scenario Template"
  | scenario => "Scenario"
  | .example => "Example"

def kind : ElementKeyword → ElementKind
  | background => .background
  | scenarioOutline => .outline
  | scenarioTemplate => .outline
  | scenario => .scenario
  | .example => .scenario

def all : List ElementKeyword :=
  [background, scenarioOutline, scenarioTemplate, scenario, .example]

end ElementKeyword

/-- The keywords that open a table of examples. -/
inductive ExamplesKeyword where
  | examples
  | scenarios
deriving DecidableEq, Repr

namespace ExamplesKeyword

def text : ExamplesKeyword → Text
  | examples => "Examples"
  | scenarios => "Scenarios"

def all : List ExamplesKeyword :=
  [examples, scenarios]

end ExamplesKeyword

/-- The two delimiters of doc strings. -/
inductive Fence where
  | quotes
  | backticks
deriving DecidableEq, Repr

namespace Fence

def text : Fence → Text
  | quotes => "\"\"\""
  | backticks => "```"

end Fence

end SuiteScore.Gherkin
