import SuiteScore.Glob.Expand

/-! The files that patterns select below a root. -/

namespace SuiteScore

/-- The files that some patterns match below a root, one pattern after another. The first pattern
that is none is an error. -/
def matchedFiles (tree : FileTree) (root : Text) : List Text → Except SuiteError (List Text)
  | [] => .ok []
  | pattern :: rest =>
    match Glob.paths tree (Path.join root pattern) with
    | .error error => .error (.pattern error)
    | .ok found => (matchedFiles tree root rest).map (found.filter tree.hasFile ++ ·)

/-- The files that patterns select below a root, in the order of paths and each once. -/
def selectFiles (tree : FileTree) (root : Text) (patterns : List Text)
    : Except SuiteError (List Text) :=
  (matchedFiles tree root patterns).map Path.sorted

end SuiteScore
