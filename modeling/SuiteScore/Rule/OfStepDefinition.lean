import SuiteScore.Rule.Naming
import SuiteScore.Rule.Weight

/-! The built-in rules about step definitions. -/

namespace SuiteScore.Rule

open Text Support

/-- More parameters are too many. -/
def maxParameters : Nat := 4

/-- Whether a line calls a method by its name: alone, before a space or before a parenthesis. -/
def calls (method line : Text) : Bool :=
  line == method || (method ++ " ").isPrefixOf line || (method ++ "(").isPrefixOf line

def ofStepDefinition : List Rule :=
  [
    builtIn "step_definition_no_code" error "with no code."
      (.stepDefinition fun definition => once definition.code.isEmpty),
    builtIn "step_definition_too_many_parameters" warning "has too many parameters."
      (.stepDefinition fun definition =>
        once (decide (maxParameters < definition.parameters.length))),
    builtIn "step_definition_lazy_debugging" info "prints with puts."
      (.stepDefinition fun definition => definition.code.countP (calls "puts")),
    builtIn "step_definition_pending" warning "is pending."
      (.stepDefinition fun definition => once (definition.code.any (calls "pending"))),
    builtIn "step_definition_todo" info "has a TODO."
      (.stepDefinition fun definition =>
        (definition.code ++ definition.comments).countP (occurs "TODO"))
  ]

end SuiteScore.Rule
