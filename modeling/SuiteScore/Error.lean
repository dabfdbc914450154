import SuiteScore.Gherkin.Error
import SuiteScore.Glob.Error
import SuiteScore.Support.Fault

/-! What can go wrong with a suite, each error with its cause. -/

namespace SuiteScore

open Text

/-- Why a file has no text. -/
inductive ReadFault where
  | missing
  | isDirectory
  | notUtf8
deriving DecidableEq, Repr

def ReadFault.message : ReadFault → Text
  | missing => "No such file or directory (os error 2)"
  | isDirectory => "Is a directory (os error 21)"
  | notUtf8 => "stream did not contain valid UTF-8"

/-- The errors of reading and scoring a suite. -/
inductive SuiteError where
  | unreadable (path : Text) (fault : ReadFault)
  | feature (path : Text) (error : Gherkin.GrammarError)
  | hook (location : Text) (fault : Support.HookFault)
  | stepDefinition (location : Text) (fault : Support.StepDefinitionFault)
  | config (path : Text)
  | pattern (error : Glob.PatternError)
deriving DecidableEq, Repr

def SuiteError.message : SuiteError → Text
  | unreadable path fault => "failed to read " ++ path ++ ": " ++ fault.message
  | feature path error => path ++ ":" ++ ofNat error.line ++ ": " ++ error.fault.message
  | hook location fault => location ++ ": invalid hook: " ++ fault.message
  | stepDefinition location fault =>
    location ++ ": invalid step definition: " ++ fault.message
  | config path => "invalid config " ++ path
  | pattern error => "bad glob pattern: " ++ error.message

end SuiteScore
