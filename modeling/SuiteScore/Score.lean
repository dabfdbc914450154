import SuiteScore.Rule.Basic

/-! Scores of targets and the totals of features. Every score is the sum of the hits it comes
from. -/

namespace SuiteScore

open Support

/-- A target with what the rules say about it. -/
structure TargetScore where
  location : Text
  name : Text
  hits : List Hit
deriving DecidableEq, Repr

namespace TargetScore

def score (target : TargetScore) : Int :=
  total Hit.contribution target.hits

def of (rules : List Rule) (target : Target) (subject : Subject) : TargetScore where
  location := target.location
  name := target.name
  hits := evaluate rules subject

def ofScenario (rules : List Rule) (scenario : Scenario) : TargetScore :=
  .of rules scenario.toTarget (.scenario scenario)

end TargetScore

/-- A feature with what the rules say about it, its background and its scenarios. -/
structure FeatureScore where
  own : TargetScore
  background : Option TargetScore
  scenarios : List TargetScore
deriving DecidableEq, Repr

namespace FeatureScore

def of (rules : List Rule) (feature : Feature) : FeatureScore where
  own := .of rules feature.toTarget (.feature feature)
  background := feature.background.map (.ofScenario rules)
  scenarios := feature.scenarios.map (.ofScenario rules)

def score (feature : FeatureScore) : Int :=
  feature.own.score

def scenariosScore (feature : FeatureScore) : Int :=
  (feature.background.map (·.score)).getD 0 + total TargetScore.score feature.scenarios

def totalScore (feature : FeatureScore) : Int :=
  feature.scenariosScore + feature.score

end FeatureScore

def scoreHooks (rules : List Rule) (hooks : List Hook) : List TargetScore :=
  hooks.map fun hook => .of rules hook.toTarget (.hook hook hooks)

def scoreStepDefinitions (rules : List Rule) (definitions : List StepDefinition)
    : List TargetScore :=
  definitions.map fun definition => .of rules definition.toTarget (.stepDefinition definition)

end SuiteScore
