import SuiteScore.Rule.Naming
import SuiteScore.Rule.Weight

/-! The built-in rules about features. -/

namespace SuiteScore.Rule

/-- More scenarios are too many. -/
def maxScenarios : Nat := 10

def distinct : List Text → List Text
  | [] => []
  | first :: rest => if rest.contains first then distinct rest else first :: distinct rest

/-- How many different tags stand on every scenario of a feature with more than one scenario. -/
def sharedTags (feature : Feature) : Nat :=
  match feature.scenarios with
  | first :: second :: rest =>
    (distinct (first.tags.filter fun tag =>
      (second :: rest).all fun scenario => scenario.tags.contains tag)).length
  | _ => 0

def ofFeature : List Rule :=
  [
    builtIn "feature_no_name" warning "has no name."
      (.feature fun feature => once (isNameless feature.name)),
    builtIn "feature_numbers_in_name" warning "name has numbers."
      (.feature fun feature => once (hasDigit feature.name)),
    builtIn "feature_long_name" info "has a long name."
      (.feature fun feature => once (isLong feature.name)),
    builtIn "feature_too_many_tags" info "has too many tags."
      (.feature fun feature => once (hasManyTags feature.tags)),
    builtIn "feature_commented_tag" info "has a commented out tag."
      (.feature fun feature => commentedTags feature.comments),
    builtIn "feature_no_scenarios" error "with no scenarios."
      (.feature fun feature => once feature.scenarios.isEmpty),
    builtIn "feature_too_many_scenarios" info "with too many scenarios."
      (.feature fun feature => once (decide (maxScenarios < feature.scenarios.length))),
    builtIn "background_with_no_scenarios" warning "has a background with no scenarios."
      (.feature fun feature => once (feature.background.isSome && feature.scenarios.isEmpty)),
    builtIn "background_with_one_scenario" warning "has a background with only one scenario."
      (.feature fun feature =>
        once (feature.background.isSome && feature.scenarios.length == 1)),
    builtIn "feature_same_tag_on_all_scenarios" info "repeats the same tag on every scenario."
      (.feature sharedTags)
  ]

end SuiteScore.Rule
