import SuiteScore.Gherkin.Reader
import SuiteScore.Gherkin.StepLine
import SuiteScore.Target

/-! Backgrounds, scenarios and outlines. Each is read from the lines of its own block, behind a
header that makes the block a feature, so that steps and rows keep the form they have in the
file. -/

namespace SuiteScore

open Text Gherkin

-----------------------------------------------------------------------------------------
-- Tables of steps
-----------------------------------------------------------------------------------------

/-- The rendered tables of the steps that have one, sorted by the lines of the steps. -/
abbrev StepTables := List (Text × List Text)

/-- Gives a step line its table, in place of one that it may have had. -/
def StepTables.insert (line : Text) (rows : List Text) : StepTables → StepTables
  | [] => [(line, rows)]
  | (other, table) :: rest =>
    if line = other then (line, rows) :: rest
    else if precedes line other then (line, rows) :: (other, table) :: rest
    else (other, table) :: StepTables.insert line rows rest

def StepTables.get? (line : Text) (tables : StepTables) : Option (List Text) :=
  (tables.find? fun entry => entry.1 = line).map (·.2)

-----------------------------------------------------------------------------------------
-- Scenarios
-----------------------------------------------------------------------------------------

/-- What a scenario is. Only an outline has examples. -/
inductive ScenarioKind where
  | background
  | scenario
  | outline (examples : List Text)
deriving DecidableEq, Repr

/-- The kind that an element's kind stands for, without examples. -/
def ScenarioKind.ofElement : ElementKind → ScenarioKind
  | .background => .background
  | .scenario => .scenario
  | .outline => .outline []

/-- A background, scenario or outline with the lines it was read from. The steps are lines of the
file and the commented-out steps before them. -/
structure Scenario extends Target where
  kind : ScenarioKind
  startLine : Nat
  comments : List Text
  steps : List Text
  tables : StepTables
  syntaxError : Bool
  lines : List Text
deriving DecidableEq, Repr

def fullName (name : Text) (description : List Text) : Text :=
  if description.isEmpty then name else name ++ " " ++ joined " " description

def Gherkin.Row.render (row : Row) : Text :=
  "|" ++ joined "|" row.cells ++ "|"

namespace Scenario

def header : Text := "Feature: isolated element"

def isolated (lines : List Text) : Text :=
  joined "\n" (header :: lines)

/-- The line of the block that the isolated text has under a number. -/
def literal? (lines : List Text) (number : Nat) : Option Text :=
  if number < 2 then none else lines[number - 2]?

def unread (location : Text) (lines : List Text) : Scenario where
  location
  name := []
  tags := []
  kind := .scenario
  startLine := Location.line location
  comments := []
  steps := []
  tables := []
  syntaxError := false
  lines

/-- Takes kind, name and tags from an element. A background has no tags. -/
def adopt (scenario : Scenario) (element : Element) : Scenario :=
  { scenario with
    kind := .ofElement element.kind
    name := fullName element.name element.description
    tags :=
      if element.kind = .background then scenario.tags else element.tags.map (·.name) }

/-- The step lines of an element, each after the comments that stand before it. -/
def elementSteps (lines : List Text) (element : Element) : List Text :=
  element.steps.flatMap fun step =>
    step.comments.map (·.text) ++ (literal? lines step.line).toList

/-- The tables of an element by step lines; of two steps with one line the later has its way. -/
def elementTables (lines : List Text) (element : Element) : StepTables :=
  element.steps.foldl
    (fun tables step =>
      match literal? lines step.line, step.argument with
      | some line, some (.table rows) => tables.insert line (rows.map (·.render))
      | _, _ => tables)
    []

/-- The rows of all examples of an element; each table after the first goes without its header. -/
def exampleRows : List Examples → List Row
  | [] => []
  | first :: rest => first.rows ++ rest.flatMap fun examples => examples.rows.drop 1

/-- The example rows of an element as lines, each after the comments that stand before it. -/
def elementExamples (lines : List Text) (element : Element) : List Text :=
  ((exampleRows element.examples).flatMap fun row =>
    row.comments.map (·.text) ++ (literal? lines row.line).toList).filter isExampleRow

/-- Takes everything from an element that was read from the isolated block. -/
def fill (scenario : Scenario) (element : Element) : Scenario :=
  { scenario.adopt element with
    comments := element.comments.map (·.text)
    steps := stepLines (elementSteps scenario.lines element)
    tables := elementTables scenario.lines element
    kind :=
      match element.kind with
      | .outline => .outline (elementExamples scenario.lines element)
      | other => .ofElement other }

/-- Reads a scenario from the lines of its block. A block that is no element is kept with a mark
and nothing else. -/
def ofBlock (grammar : Grammar) (location : Text) (block : List Text) : Scenario :=
  let lines := block.map (dropEndWhile fun c => c == '\r' || c == '\n')
  let scenario := unread location lines
  match grammar (isolated lines) with
  | .error _ => { scenario with syntaxError := true }
  | .ok tree =>
    match tree.allElements with
    | [] => { scenario with syntaxError := true }
    | element :: _ => scenario.fill element

/-- The example rows of an outline; nothing else has any. -/
def examples (scenario : Scenario) : List Text :=
  match scenario.kind with
  | .outline rows => rows
  | _ => []

def isBackground (scenario : Scenario) : Bool :=
  match scenario.kind with
  | .background => true
  | _ => false

def isOutline (scenario : Scenario) : Bool :=
  match scenario.kind with
  | .outline _ => true
  | _ => false

def stepOrder (scenario : Scenario) : List StepKeyword :=
  (scenario.steps.filter fun line => !isCommented line).filterMap stepKeyword?

def className (scenario : Scenario) : Text :=
  match scenario.kind with
  | .background => "Background"
  | .scenario => "Scenario"
  | .outline _ => "Scenario Outline"

end Scenario

/-- The grammar that refuses the isolated blocks in which `part` stands. -/
def Gherkin.Grammar.refusing (part : Text) (grammar : Grammar) : Grammar := fun text =>
  if (Scenario.header ++ "\n").isPrefixOf text && occurs part text then
    .error ⟨2, .refused "rejected"⟩
  else grammar text

end SuiteScore
