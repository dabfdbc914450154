import SuiteScore.CommandLine
import SuiteScore.Proofs.Report.Painted
import SuiteScore.Proofs.Scan.Accounting
import SuiteScore.Proofs.Settings.Resolution

/-! The exit code of a score. Settings and patterns decide whether there is a report, and then only
the threshold and the totals of the features that can be built decide on the code.
-/

namespace SuiteScore

open Text Gherkin Settings Report

-----------------------------------------------------------------------------------------
-- What stops a score
-----------------------------------------------------------------------------------------

/-- The rules that settings leave in effect. -/
def Settings.Effective.rules (settings : Effective) : List Rule :=
  applyOverrides settings.overrides catalog

section

variable {tree : FileTree} {settings : Effective} {featureFiles : List Text}
  (hfeatures : selectFiles tree settings.root settings.features = .ok featureFiles)
  (supportFiles : List Text)

include hfeatures

end

-----------------------------------------------------------------------------------------
-- The code
-----------------------------------------------------------------------------------------

section

variable {tree : FileTree} {request : Request} (noColor : Bool)

end

end SuiteScore
