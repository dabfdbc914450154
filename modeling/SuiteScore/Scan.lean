import SuiteScore.Files.Selection
import SuiteScore.Path.Relative
import SuiteScore.Score
import SuiteScore.Settings.Effective
import SuiteScore.Support.Declaration

/-! Scoring a whole suite: every feature file for itself, and all hooks together. -/

namespace SuiteScore

open Gherkin Support Settings

/-- What went wrong with a file. One that is met in a file does not stop the scan. -/
structure FileError where
  file : Text
  error : SuiteError
deriving DecidableEq, Repr

/-- The scores of a suite. -/
structure ScanResult where
  files : Nat
  features : List FeatureScore
  hooks : List TargetScore
  stepDefinitions : List TargetScore
  errors : List FileError
  threshold : Option Int
deriving DecidableEq, Repr

def isOver (threshold : Option Int) (score : Int) : Bool :=
  threshold.any fun limit => decide (limit < score)

namespace ScanResult

def scenarios (result : ScanResult) : Nat :=
  tally (·.scenarios.length) result.features

def totalScore (result : ScanResult) : Int :=
  total FeatureScore.totalScore result.features + total TargetScore.score result.hooks
    + total TargetScore.score result.stepDefinitions

def overThreshold (result : ScanResult) : Nat :=
  result.features.countP fun feature => isOver result.threshold feature.totalScore

end ScanResult

def valuesOf (outcomes : List (Except ε α)) : List α :=
  outcomes.filterMap Except.toOption

def errorsOf (outcomes : List (Except ε α)) : List ε :=
  outcomes.filterMap fun outcome => match outcome with
    | .ok _ => none
    | .error error => some error

/-- The score of a feature file. Locations name the file as it is seen from the root. -/
def scanFeature (tree : FileTree) (root : Text) (rules : List Rule) (grammar : Grammar)
    (path : Text) : Except FileError FeatureScore :=
  let file := Path.relativeTo root path
  match tree.read path with
  | .error fault => .error ⟨file, .unreadable path fault⟩
  | .ok source =>
    match Feature.ofText grammar file source with
    | .error error => .error ⟨file, error⟩
    | .ok feature => .ok (.of rules feature)

/-- What the blocks of a support file declare. A file without text is one error. -/
def scanSupport (tree : FileTree) (root path : Text) : List (Except FileError Declaration) :=
  let file := Path.relativeTo root path
  match tree.read path with
  | .error fault => [.error ⟨file, .unreadable path fault⟩]
  | .ok source => (declarations file source).map (·.mapError (⟨file, ·⟩))

def scanFiles (tree : FileTree) (settings : Effective) (rules : List Rule) (grammar : Grammar)
    (featureFiles supportFiles : List Text) : ScanResult :=
  let features := featureFiles.map (scanFeature tree settings.root rules grammar)
  let support := supportFiles.flatMap (scanSupport tree settings.root)
  let found := valuesOf support
  {
    files := featureFiles.length + supportFiles.length
    features := valuesOf features
    hooks := scoreHooks rules (found.filterMap (·.hook?))
    stepDefinitions := scoreStepDefinitions rules (found.filterMap (·.stepDefinition?))
    errors := errorsOf features ++ errorsOf support
    threshold := settings.threshold
  }

def scan (tree : FileTree) (settings : Effective) (rules : List Rule) (grammar : Grammar)
    : Except SuiteError ScanResult := do
  let featureFiles ← selectFiles tree settings.root settings.features
  let supportFiles ← selectFiles tree settings.root settings.support
  return scanFiles tree settings rules grammar featureFiles supportFiles

end SuiteScore
