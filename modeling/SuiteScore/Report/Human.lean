import SuiteScore.Report.Style
import SuiteScore.Scan

/-! Results and rules as lines for people. -/

namespace SuiteScore.Report

open Text

/-- A line of the report on a scan. Lines about parts of a target are indented. -/
inductive Line where
  | score (indent : Nat) (score : Int) (exceeds : Bool) (location name : Text)
  | hit (indent : Nat) (hit : Hit)
  | error (error : FileError)
  | summary (result : ScanResult)

def hitLines (indent : Nat) (hits : List Hit) : List Line :=
  hits.map (.hit indent)

/-- The lines of a target within a feature or for itself. A target without hits has none. -/
def targetLines (indent : Nat) (target : TargetScore) : List Line :=
  if target.hits.isEmpty then []
  else
    .score indent target.score false target.location target.name
      :: hitLines (indent + 4) target.hits

def featureLines (threshold : Option Int) (feature : FeatureScore) : List Line :=
  .score 0 feature.totalScore (isOver threshold feature.totalScore) feature.own.location
      feature.own.name
    :: hitLines 4 feature.own.hits
    ++ (feature.background.toList ++ feature.scenarios).flatMap (targetLines 2)

def scanLines (result : ScanResult) : List Line :=
  result.features.flatMap (featureLines result.threshold)
    ++ (result.hooks ++ result.stepDefinitions).flatMap (targetLines 0)
    ++ result.errors.map .error
    ++ [.summary result]

def indentation (size : Nat) : Piece :=
  .plain (List.replicate size ' ')

def scoreStyle (score : Int) (exceeds : Bool) : Style :=
  if exceeds then .boldRed else if 0 < score then .yellow else .green

def thresholdText (result : ScanResult) : Text :=
  match result.threshold with
  | some limit =>
    " over_threshold=" ++ ofNat result.overThreshold ++ " (threshold=" ++ ofInt limit ++ ")"
  | none => []

def summaryText (result : ScanResult) : Text :=
  "— Summary — score=" ++ ofInt result.totalScore
    ++ " files=" ++ ofNat result.files
    ++ " features=" ++ ofNat result.features.length
    ++ " scenarios=" ++ ofNat result.scenarios
    ++ " hooks=" ++ ofNat result.hooks.length
    ++ " step_definitions=" ++ ofNat result.stepDefinitions.length
    ++ " errors=" ++ ofNat result.errors.length
    ++ thresholdText result

def timesText (count : Nat) : Text :=
  if 1 < count then " (x" ++ ofNat count ++ ")" else []

def Line.pieces : Line → List Piece
  | score indent points exceeds location name =>
    [indentation indent, ⟨scoreStyle points exceeds, "[" ++ ofInt points ++ "]"⟩, .plain " ",
      ⟨.bold, location⟩, .plain (" " ++ name)]
  | hit indent own =>
    [indentation indent, ⟨.gray, ofSignedInt own.contribution⟩,
      .plain (" " ++ own.phrase ++ timesText own.count)]
  | error own =>
    [⟨.red, "✖"⟩, .plain (" " ++ own.file ++ " — " ++ own.error.message)]
  | summary result => [⟨.bold, summaryText result⟩]

def padStart (width : Nat) (text : Text) : Text :=
  List.replicate (width - text.length) ' ' ++ text

def stateText (rule : Rule) : Text :=
  if rule.enabled then [] else " (disabled)"

def rulePieces (rule : Rule) : List Piece :=
  [.plain (padStart 4 (ofInt rule.weight) ++ " "), ⟨.bold, rule.id⟩,
    .plain (" [" ++ rule.kind.text ++ "] " ++ rule.phraseFor rule.kind.text ++ stateText rule)]

def ofScan (colored : Bool) (result : ScanResult) : Text :=
  renderLines colored ((scanLines result).map (·.pieces))

def ofRules (colored : Bool) (rules : List Rule) : Text :=
  renderLines colored (rules.map rulePieces)

def errorMark : Piece :=
  ⟨.boldRed, "error:"⟩

end SuiteScore.Report
