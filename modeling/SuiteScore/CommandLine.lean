import SuiteScore.Report.Document
import SuiteScore.Report.Human
import SuiteScore.Rule.Catalog

/-! The command line: its arguments and what each command does with the files. -/

namespace SuiteScore

open Text Settings

-----------------------------------------------------------------------------------------
-- Outputs
-----------------------------------------------------------------------------------------

/-- The name of the output for programs. Every other name means the output for people. -/
def jsonOutput : Text := "json"

def isColored (output : Text) (noColor : Bool) : Bool :=
  output != jsonOutput && !noColor

def writeScan (output : Text) (noColor : Bool) (result : ScanResult) : Text :=
  if output = jsonOutput then result.toJson.render ++ "\n"
  else Report.ofScan (isColored output noColor) result

def writeRules (output : Text) (noColor : Bool) (rules : List Rule) : Text :=
  if output = jsonOutput then (rulesJson rules).render ++ "\n"
  else Report.ofRules (isColored output noColor) rules

-----------------------------------------------------------------------------------------
-- Arguments
-----------------------------------------------------------------------------------------

/-- What the program is asked to do. -/
inductive Command where
  | score (request : Request)
  | rules (request : Request)
  | version
  /-- The version with the name of the program. -/
  | banner
  | help
deriving DecidableEq, Repr

/-- The options of the commands. -/
inductive OptionName where
  | repoRoot
  | output
  | feature
  | threshold
deriving DecidableEq, Repr

def OptionName.text : OptionName → Text
  | repoRoot => "repo-root"
  | output => "output"
  | feature => "feature"
  | threshold => "threshold"

def scoreOptions : List OptionName :=
  [.repoRoot, .output, .feature, .threshold]

def ruleOptions : List OptionName :=
  [.repoRoot, .output]

namespace Command

def nothing : Request :=
  { root := none, output := none, features := [], threshold := none }

/-- Gives a value to an option. Only features can be given several times. -/
def give (request : Request) (option : OptionName) (value : Text) : Option Request :=
  match option with
  | .repoRoot => if request.root.isSome then none else some { request with root := some value }
  | .output => if request.output.isSome then none else some { request with output := some value }
  | .feature => some { request with features := request.features ++ [value] }
  | .threshold =>
    if request.threshold.isSome then none
    else (int? value).map fun limit => { request with threshold := some limit }

/-- Whether an argument can be the value of the option before it. One that starts with a hyphen
cannot, unless it is nothing else, or a negative number where a number is expected. -/
def isValueFor (option : OptionName) (argument : Text) : Bool :=
  match argument with
  | '-' :: rest => rest.isEmpty || (option == .threshold && rest.all Char.isDigit)
  | _ => true

/-- Reads options with their values, each in one argument with an equals sign or in two. Nothing
but options is allowed; two hyphens can end them. -/
def readOptions (allowed : List OptionName) (request : Request) : List Text → Option Request
  | [] => some request
  | [['-', '-']] => some request
  | argument :: rest =>
    match ("--" : Text).isPrefixOf? argument with
    | none => none
    | some written =>
      match cut? '=' written with
      | some (name, value) =>
        (allowed.find? fun option => option.text = name).bind fun option =>
          (give request option value).bind fun request => readOptions allowed request rest
      | none =>
        (allowed.find? fun option => option.text = written).bind fun option =>
          match rest with
          | value :: rest =>
            if isValueFor option value then
              (give request option value).bind fun request => readOptions allowed request rest
            else none
          | [] => none

def isHelp (argument : Text) : Bool :=
  argument == ("--help" : Text) || ("-h" : Text).isPrefixOf argument

def ofArguments : List Text → Option Command
  | [] => none
  | name :: rest =>
    if name = ("--version" : Text) ∨ ("-V" : Text).isPrefixOf name then some .banner
    else if isHelp name || (name == ("help" : Text) && rest.isEmpty) then some .help
    else if name = ("version" : Text) then
      if rest = [] ∨ rest = [("--" : Text)] then some .version
      else if rest.head?.any isHelp then some .help
      else none
    else if name = ("score" : Text) then
      if rest.head?.any isHelp then some .help
      else (readOptions scoreOptions nothing rest).map .score
    else if name = ("rules" : Text) then
      if rest.head?.any isHelp then some .help
      else (readOptions ruleOptions nothing rest).map .rules
    else none

end Command

-----------------------------------------------------------------------------------------
-- Outcomes
-----------------------------------------------------------------------------------------

/-- What the program leaves behind: its exit code and what it has written to both outputs. -/
structure Outcome where
  code : Nat
  output : Text
  errors : Text
deriving DecidableEq, Repr

namespace Outcome

def success (output : Text) : Outcome :=
  { code := 0, output, errors := [] }

def failure (colored : Bool) (error : SuiteError) : Outcome where
  code := 2
  output := []
  errors := Report.renderLine colored [Report.errorMark, .plain (" " ++ error.message)]

end Outcome

def version : Text := "0.1.0"

def programName : Text := "bddscore"

def usage : Text :=
  "usage: bddscore version\n"
    ++ "       bddscore score [--repo-root DIR] [--output human|json] [--feature GLOB]... "
    ++ "[--threshold N]\n"
    ++ "       bddscore rules [--repo-root DIR] [--output human|json]\n"

def misuse : Outcome :=
  { code := 2, output := [], errors := usage }

namespace Command

/-- Resolves the settings and goes on with them. An error before the settings are known is written
for the output that the request names. -/
def withSettings (tree : FileTree) (noColor : Bool) (request : Request)
    (next : Effective → Outcome) : Outcome :=
  match request.resolve tree with
  | .error error =>
    .failure (isColored (request.output.getD defaultOutput) noColor) error
  | .ok settings => next settings

/-- Scores the suite. The exit code tells whether a feature lies above the threshold. -/
def runScore (tree : FileTree) (noColor : Bool) (settings : Effective) : Outcome :=
  let rules := applyOverrides settings.overrides catalog
  match scan tree settings rules Gherkin.FeatureTree.ofText with
  | .error error => .failure (isColored settings.output noColor) error
  | .ok result =>
    { code := if 0 < result.overThreshold then 1 else 0
      output := writeScan settings.output noColor result
      errors := [] }

def runRules (noColor : Bool) (settings : Effective) : Outcome :=
  .success (writeRules settings.output noColor (applyOverrides settings.overrides catalog))

def run (tree : FileTree) (noColor : Bool) : Command → Outcome
  | score request => withSettings tree noColor request (runScore tree noColor)
  | rules request => withSettings tree noColor request (runRules noColor)
  | version => .success (SuiteScore.version ++ "\n")
  | banner => .success (programName ++ " " ++ SuiteScore.version ++ "\n")
  | help => .success usage

end Command

def runArguments (tree : FileTree) (noColor : Bool) (arguments : List Text) : Outcome :=
  match Command.ofArguments arguments with
  | some command => command.run tree noColor
  | none => misuse

end SuiteScore
