import SuiteScore.Rule.OfFeature
import SuiteScore.Rule.OfHook
import SuiteScore.Rule.OfScenario
import SuiteScore.Rule.OfStep
import SuiteScore.Rule.OfStepDefinition

/-! The catalog of built-in rules. -/

namespace SuiteScore

def catalog : List Rule :=
  Rule.ofFeature ++ Rule.ofScenario ++ Rule.ofStep ++ Rule.ofHook ++ Rule.ofStepDefinition

end SuiteScore
