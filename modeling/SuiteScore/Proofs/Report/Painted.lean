import SuiteScore.Report.Human

/-! Features over the threshold in reports. The lines in the colour of scores over the threshold are
those of the features that a result counts as over it.
-/

namespace SuiteScore.Report

/-- Whether a line is about a score over the threshold. -/
def Line.exceeds : Line → Bool
  | score _ _ exceeds _ _ => exceeds
  | _ => false

end SuiteScore.Report
