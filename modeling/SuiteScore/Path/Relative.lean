import SuiteScore.Path.Basic

/-! Paths as they are seen from a directory. -/

namespace SuiteScore.Path

open Text

/-- The steps that lead from a directory to a path, given the steps to the path and to the
directory. Common steps are skipped as long as none has been written. A directory that is left
needs a step up, and there is none out of a step up. -/
def stepsFrom (written : Bool) : List Component → List Component → Option (List Component)
  | steps, [] => some steps
  | [], _ :: base => (stepsFrom true [] base).map (.above :: ·)
  | step :: steps, start :: base =>
    if !written && step == start then stepsFrom false steps base
    else if start = .here then (stepsFrom true steps base).map (step :: ·)
    else if start = .above then none
    else some (.above :: base.map (fun _ => .above) ++ step :: steps)

/-- A path as it is seen from a directory, or the path itself when there is no way. There is none
between an absolute path and one that is not absolute. -/
def relativeTo (base path : Text) : Text :=
  if isAbsolute path != isAbsolute base then path
  else
    match stepsFrom false (components path) (components base) with
    | some steps => joined "/" (steps.map (·.text))
    | none => path

end SuiteScore.Path
