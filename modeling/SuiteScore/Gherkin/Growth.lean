import SuiteScore.Gherkin.Error
import SuiteScore.Gherkin.Tree

/-! Growing the tree of a feature file at its end. -/

namespace SuiteScore.Gherkin

def amendLast (change : α → α) : List α → List α
  | [] => []
  | [last] => [change last]
  | first :: second :: rest => first :: amendLast change (second :: rest)

def FeatureTree.add (tree : FeatureTree) (element : Element) : FeatureTree :=
  match element.kind with
  | .background => { tree with background := some element }
  | _ => { tree with elements := tree.elements ++ [element] }

def FeatureTree.isBare (tree : FeatureTree) : Bool :=
  tree.background.isNone && tree.elements.isEmpty

def Examples.addRow (row : Row) (examples : Examples) : Examples :=
  { examples with rows := examples.rows ++ [row] }

/-- Adds a row to the table of a step, which is opened by its first row. A doc string keeps its
place. -/
def Step.addRow (row : Row) (step : Step) : Step :=
  match step.argument with
  | none => { step with argument := some (.table [row]) }
  | some (.table rows) => { step with argument := some (.table (rows ++ [row])) }
  | some (.docString ..) => step

/-- A row goes to the examples opened last, else to the last step. -/
def Element.addRow (element : Element) (row : Row) : Except Fault Element :=
  if !element.examples.isEmpty then
    .ok { element with examples := amendLast (Examples.addRow row) element.examples }
  else
    match element.steps.getLast? with
    | none => .error .rowWithoutStep
    | some step =>
      match step.argument with
      | some (.docString ..) => .error .rowAfterDocString
      | _ => .ok { element with steps := amendLast (Step.addRow row) element.steps }

/-- Whether the element ends with a step that can still take a doc string. -/
def Element.awaitsArgument (element : Element) : Bool :=
  element.examples.isEmpty && element.steps.getLast?.any (·.argument.isNone)

def Element.attach (element : Element) (argument : Argument) : Element :=
  { element with
    steps := amendLast (fun step => { step with argument := some argument }) element.steps }

/-- Adds a line to the description of an element without steps and examples, or to that of the
examples opened last as long as they have no row. -/
def Element.describe? (element : Element) (text : Text) : Option Element :=
  if element.steps.isEmpty && element.examples.isEmpty then
    some { element with description := element.description ++ [text] }
  else if element.examples.getLast?.any (·.rows.isEmpty) then
    some { element with
      examples := amendLast
        (fun examples => { examples with description := examples.description ++ [text] })
        element.examples }
  else none

end SuiteScore.Gherkin
