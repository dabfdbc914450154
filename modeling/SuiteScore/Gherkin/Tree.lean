import SuiteScore.Gherkin.Keyword

/-! The tree of a feature file. Every node keeps the number of the line that declares it, and the
comments that stand before it keep theirs; the first line has number one. -/

namespace SuiteScore.Gherkin

/-- A comment line without the blanks around it. -/
structure Comment where
  text : Text
  line : Nat
deriving DecidableEq, Repr

/-- A tag with its leading at sign. -/
structure Tag where
  name : Text
  line : Nat
deriving DecidableEq, Repr

/-- A row of a table. -/
structure Row where
  cells : List Text
  line : Nat
  comments : List Comment
deriving DecidableEq, Repr

/-- What a step can carry below its line: a table, or a doc string with the lines of its two
delimiters. -/
inductive Argument where
  | table (rows : List Row)
  | docString (content : List Text) (first last : Nat)
deriving DecidableEq, Repr

structure Step where
  keyword : StepKeyword
  text : Text
  line : Nat
  comments : List Comment
  argument : Option Argument
deriving DecidableEq, Repr

/-- The last line that belongs to the step. -/
def Step.lastLine (step : Step) : Nat :=
  match step.argument with
  | some (.table rows) => (rows.getLast?.map (·.line)).getD step.line
  | some (.docString _ _ last) => last
  | none => step.line

/-- A table of examples below an outline. -/
structure Examples where
  keyword : ExamplesKeyword
  name : Text
  description : List Text
  tags : List Tag
  comments : List Comment
  line : Nat
  rows : List Row
deriving DecidableEq, Repr

/-- A background, a scenario or an outline. -/
structure Element where
  keyword : ElementKeyword
  name : Text
  description : List Text
  tags : List Tag
  comments : List Comment
  line : Nat
  steps : List Step
  examples : List Examples
deriving DecidableEq, Repr

def Element.kind (element : Element) : ElementKind :=
  element.keyword.kind

structure FeatureTree where
  name : Text
  description : List Text
  tags : List Tag
  comments : List Comment
  line : Nat
  background : Option Element
  elements : List Element
deriving DecidableEq, Repr

def FeatureTree.keyword : Text := "Feature"

/-- The background, if any, and then the other elements in the order of the file. -/
def FeatureTree.allElements (tree : FeatureTree) : List Element :=
  tree.background.toList ++ tree.elements

end SuiteScore.Gherkin
