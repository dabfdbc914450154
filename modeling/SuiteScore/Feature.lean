import SuiteScore.Error
import SuiteScore.Gherkin.Span
import SuiteScore.Scenario

/-! Features with their backgrounds and scenarios. -/

namespace SuiteScore

open Text Gherkin

/-- A feature with the lines of its file. -/
structure Feature extends Target where
  background : Option Scenario
  scenarios : List Scenario
  comments : List Text
  lines : List Text
deriving DecidableEq, Repr

namespace Feature

def blank (path : Text) (lines : List Text) : Feature where
  location := path
  name := []
  tags := []
  background := none
  scenarios := []
  comments := []
  lines

/-- Reads the scenario of an element from the lines of its span. If these cannot be read alone,
kind, name and tags are those that the element has in the whole file. -/
def scenarioOf (grammar : Grammar) (path : Text) (lines : List Text) (element : Element)
    : Scenario :=
  let scenario :=
    Scenario.ofBlock grammar (Location.ofLine path element.line) ((Span.of element).cut lines)
  if scenario.syntaxError then scenario.adopt element else scenario

def add (feature : Feature) (scenario : Scenario) : Feature :=
  match scenario.kind with
  | .background => { feature with background := some scenario }
  | _ => { feature with scenarios := feature.scenarios ++ [scenario] }

def ofTree (path : Text) (lines : List Text) (tree : FeatureTree) : Feature where
  location := Location.ofLine path tree.line
  name := fullName tree.name tree.description
  tags := tree.tags.map (·.name)
  background := none
  scenarios := []
  comments := tree.comments.map (·.text)
  lines

def ofText (grammar : Grammar) (path source : Text) : Except SuiteError Feature :=
  let lines := Text.lines source
  if lines.all fun line => (trim line).isEmpty then .ok (blank path lines)
  else
    match grammar source with
    | .error error => .error (.feature path error)
    | .ok tree =>
      .ok ((tree.allElements.map (scenarioOf grammar path lines)).foldl add
        (ofTree path lines tree))

def elements (feature : Feature) : List Scenario :=
  feature.background.toList ++ feature.scenarios

end Feature

end SuiteScore
