import SuiteScore.Rule.Naming
import SuiteScore.Rule.Weight

/-! The built-in rules about scenarios, outlines and backgrounds. -/

namespace SuiteScore.Rule

open Gherkin

/-- More steps are too many. -/
def maxSteps : Nat := 7

/-- More examples are too many. -/
def maxExamples : Nat := 10

/-- More rows of a step table are too many. -/
def maxTableRows : Nat := 10

/-- The place of a keyword in the order of steps; some keywords can stand anywhere. -/
def rank? : StepKeyword → Option Nat
  | .context => some 0
  | .action => some 1
  | .outcome => some 2
  | _ => none

def descends : List Nat → Bool
  | first :: second :: rest => decide (second < first) || descends (second :: rest)
  | _ => false

def isOutOfOrder (scenario : Scenario) : Bool :=
  descends (scenario.stepOrder.filterMap rank?)

/-- Whether the first step goes on from a step that is not there. -/
def startsWithConjunction (scenario : Scenario) : Bool :=
  match scenario.stepOrder with
  | .conjunction :: _ => true
  | .contrast :: _ => true
  | _ => false

/-- How many example rows are not commented out, the header among them. -/
def liveExamples (scenario : Scenario) : Nat :=
  scenario.examples.countP fun row => !isCommented row

def ofScenario : List Rule :=
  [
    builtIn "scenario_syntax_error" fatal "has a syntax error."
      (.scenario fun scenario => once scenario.syntaxError),
    builtIn "scenario_no_name" warning "has no name."
      (.scenario fun scenario => once (!scenario.isBackground && isNameless scenario.name)),
    builtIn "scenario_numbers_in_name" warning "name has numbers."
      (.scenario fun scenario => once (hasDigit scenario.name)),
    builtIn "scenario_long_name" info "has a long name."
      (.scenario fun scenario => once (isLong scenario.name)),
    builtIn "scenario_too_many_tags" info "has too many tags."
      (.scenario fun scenario => once (hasManyTags scenario.tags)),
    builtIn "scenario_commented_tag" info "has a commented out tag."
      (.scenario fun scenario => commentedTags scenario.comments),
    builtIn "scenario_no_steps" error "with no steps."
      (.scenario fun scenario => once (!scenario.syntaxError && scenario.stepOrder.isEmpty)),
    builtIn "scenario_too_many_steps" warning "with too many steps."
      (.scenario fun scenario => once (decide (maxSteps < scenario.stepOrder.length))),
    builtIn "scenario_out_of_order_steps" warning "steps are out of Given/When/Then order."
      (.scenario fun scenario => once (isOutOfOrder scenario)),
    builtIn "scenario_invalid_first_step" warning "begins with And/But."
      (.scenario fun scenario => once (startsWithConjunction scenario)),
    builtIn "outline_no_examples_table" error "with no examples table."
      (.scenario fun scenario =>
        once (scenario.isOutline && !scenario.syntaxError && scenario.examples.isEmpty)),
    builtIn "outline_no_examples" error "with no examples."
      (.scenario fun scenario => once (scenario.isOutline && liveExamples scenario == 1)),
    builtIn "outline_one_example" warning "with only one example."
      (.scenario fun scenario => once (scenario.isOutline && liveExamples scenario == 2)),
    builtIn "outline_too_many_examples" warning "with too many examples."
      (.scenario fun scenario =>
        once (scenario.isOutline && decide (maxExamples + 1 < liveExamples scenario))),
    builtIn "outline_commented_example" info "has a commented example."
      (.scenario fun scenario => scenario.examples.countP isCommented),
    builtIn "scenario_large_inline_table" info "has a step table that is too long."
      (.scenario fun scenario =>
        scenario.tables.countP fun (_, rows) => decide (maxTableRows < rows.length))
  ]

end SuiteScore.Rule
