import SuiteScore.Report.Json
import SuiteScore.Scan

/-! Results and rules as JSON. -/

namespace SuiteScore

def Hit.toJson (hit : Hit) : Json :=
  .object [
    ("rule_id", .text hit.rule),
    ("phrase", .text hit.phrase),
    ("count", .nat hit.count),
    ("contribution", .int hit.contribution)
  ]

def TargetScore.toJson (target : TargetScore) : Json :=
  .object [
    ("location", .text target.location),
    ("name", .text target.name),
    ("score", .int target.score),
    ("hits", .list (target.hits.map (·.toJson)))
  ]

def FeatureScore.toJson (feature : FeatureScore) : Json :=
  .object [
    ("location", .text feature.own.location),
    ("name", .text feature.own.name),
    ("score", .int feature.score),
    ("scenarios_score", .int feature.scenariosScore),
    ("total_score", .int feature.totalScore),
    ("hits", .list (feature.own.hits.map (·.toJson))),
    ("background", .optional TargetScore.toJson feature.background),
    ("scenarios", .list (feature.scenarios.map (·.toJson)))
  ]

def FileError.toJson (error : FileError) : Json :=
  .object [("file", .text error.file), ("message", .text error.error.message)]

def ScanResult.summaryJson (result : ScanResult) : Json :=
  .object [
    ("files", .nat result.files),
    ("features", .nat result.features.length),
    ("scenarios", .nat result.scenarios),
    ("hooks", .nat result.hooks.length),
    ("step_definitions", .nat result.stepDefinitions.length),
    ("errors", .nat result.errors.length),
    ("total_score", .int result.totalScore),
    ("threshold", .optional Json.int result.threshold),
    ("over_threshold", .nat result.overThreshold)
  ]

def ScanResult.toJson (result : ScanResult) : Json :=
  .object [
    ("features", .list (result.features.map (·.toJson))),
    ("hooks", .list (result.hooks.map (·.toJson))),
    ("step_definitions", .list (result.stepDefinitions.map (·.toJson))),
    ("errors", .list (result.errors.map (·.toJson))),
    ("summary", result.summaryJson)
  ]

def Rule.toJson (rule : Rule) : Json :=
  .object [
    ("id", .text rule.id),
    ("target", .text rule.kind.text),
    ("score", .int rule.weight),
    ("enabled", .bool rule.enabled),
    ("phrase", .text rule.phrase)
  ]

def rulesSummaryJson (rules : List Rule) : Json :=
  .object [("total", .nat rules.length), ("enabled", .nat (rules.countP (·.enabled)))]

def rulesJson (rules : List Rule) : Json :=
  .object [
    ("rules", .list (rules.map (·.toJson))),
    ("summary", rulesSummaryJson rules)
  ]

end SuiteScore
