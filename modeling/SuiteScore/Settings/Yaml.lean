import SuiteScore.Settings.Value
import SuiteScore.Settings.Yaml.Layout
import SuiteScore.Settings.Yaml.Node

/-! Settings files in YAML. -/

namespace SuiteScore.Settings.Yaml

open Text

/-- How deep settings lie in a file, which holds the rules, a rule, and what is set of it. -/
def settingsDepth : Nat := 4

def follow (anchored : List (Nat × Node)) (node : Node) : Node :=
  match node with
  | .reference number => ((anchored.find? fun entry => entry.1 = number).map (·.2)).getD node
  | other => other

def scalarText? (node : Node) : Option Text :=
  match node with
  | .scalar scalar => some scalar.text
  | _ => none

/-- The value of a node down to a number of levels; no setting lies deeper, and a reference within
its own node would have no end. No setting takes a map with keys that are no scalars. -/
def valueOf (anchored : List (Nat × Node)) : (levels : Nat) → Node → Value
  | 0, _ => .unfit
  | levels + 1, node =>
    match follow anchored node with
    | .scalar scalar => .scalar scalar
    | .reference _ => .unfit
    | .list items => .list (items.map (valueOf anchored levels))
    | .map pairs =>
      let entry? (pair : Node × Node) : Option (Text × Value) :=
        (scalarText? (follow anchored pair.1)).map (·, valueOf anchored levels pair.2)
      match pairs.mapM entry? with
      | some entries => .table .closed entries
      | none => .unfit

def read (text : Text) : Option Value :=
  ((tokens? text).bind Document.ofTokens?).map fun document =>
    valueOf document.anchored settingsDepth document.root

end SuiteScore.Settings.Yaml
