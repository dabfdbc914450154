import SuiteScore.Gherkin.Growth
import SuiteScore.Gherkin.Line
import SuiteScore.Text.Lines

/-! Reading a feature file line by line. Comments and tags wait in the reader until a line comes
that can own them. -/

namespace SuiteScore.Gherkin

open Text

/-- A way to read feature files. -/
abbrev Grammar := Text → Except GrammarError FeatureTree

/-- A doc string whose closing delimiter has not been met. -/
structure OpenDocString where
  fence : Fence
  line : Nat
  content : List Text
deriving DecidableEq, Repr

/-- What has been read so far: the feature with its finished elements, the element that is still
growing, the comments and tags that wait for an owner, and the doc string that is open. -/
structure Reader where
  feature : Option FeatureTree
  current : Option Element
  comments : List Comment
  tags : List Tag
  docString : Option OpenDocString
deriving DecidableEq, Repr

namespace Reader

def start : Reader :=
  { feature := none, current := none, comments := [], tags := [], docString := none }

-----------------------------------------------------------------------------------------
-- Features and elements
-----------------------------------------------------------------------------------------

/-- Tags wait for the next feature, element or examples line. -/
def addTags (reader : Reader) (line : Nat) (tokens : List Text) : Except GrammarError Reader :=
  match tokens.find? (fun token => !isTag token) with
  | some token => .error ⟨line, .invalidTag token⟩
  | none => .ok { reader with tags := reader.tags ++ tokens.map (fun name => ⟨name, line⟩) }

def openFeature (reader : Reader) (line : Nat) (name : Text) : Except GrammarError Reader :=
  match reader.feature with
  | some _ => .error ⟨line, .secondFeature⟩
  | none =>
    .ok { reader with
      feature := some {
        name
        description := []
        tags := reader.tags
        comments := reader.comments
        line
        background := none
        elements := [] }
      tags := []
      comments := [] }

def closeElement (reader : Reader) : Reader :=
  match reader.feature, reader.current with
  | some feature, some element =>
    { reader with feature := some (feature.add element), current := none }
  | _, _ => { reader with current := none }

/-- An element line ends the element before it. A background comes first or not at all. -/
def openElement (reader : Reader) (line : Nat) (keyword : ElementKeyword) (name : Text)
    : Except GrammarError Reader :=
  let closed := reader.closeElement
  match closed.feature with
  | none => .error ⟨line, .elementBeforeFeature keyword⟩
  | some feature =>
    if keyword.kind = .background ∧ !feature.isBare then .error ⟨line, .lateBackground⟩
    else
      .ok { closed with
        current := some {
          keyword
          name
          description := []
          tags := reader.tags
          comments := reader.comments
          line
          steps := []
          examples := [] }
        tags := []
        comments := [] }

def openExamples (reader : Reader) (line : Nat) (keyword : ExamplesKeyword) (name : Text)
    : Except GrammarError Reader :=
  match reader.current with
  | some element =>
    if element.kind = .outline then
      let opened : Examples := {
        keyword
        name
        description := []
        tags := reader.tags
        comments := reader.comments
        line
        rows := [] }
      .ok { reader with
        current := some { element with examples := element.examples ++ [opened] }
        tags := []
        comments := [] }
    else .error ⟨line, .examplesOutsideOutline keyword⟩
  | none => .error ⟨line, .examplesOutsideOutline keyword⟩

-----------------------------------------------------------------------------------------
-- Steps and their arguments
-----------------------------------------------------------------------------------------

/-- A step belongs to an element without examples, and no tag can wait for it. -/
def addStep (reader : Reader) (line : Nat) (keyword : StepKeyword) (text : Text)
    : Except GrammarError Reader :=
  if !reader.tags.isEmpty then .error ⟨line, .tagsOnStep⟩
  else
    match reader.current with
    | none => .error ⟨line, .stepOutsideElement⟩
    | some element =>
      if element.examples.isEmpty then
        let step : Step := { keyword, text, line, comments := reader.comments, argument := none }
        .ok { reader with
          current := some { element with steps := element.steps ++ [step] }
          comments := [] }
      else .error ⟨line, .stepAfterExamples⟩

def addRow (reader : Reader) (line : Nat) (text : Text) : Except GrammarError Reader :=
  if !isRow text then .error ⟨line, .unclosedRow⟩
  else
    match reader.current with
    | none => .error ⟨line, .rowOutsideElement⟩
    | some element =>
      match element.addRow { cells := cells text, line, comments := reader.comments } with
      | .error fault => .error ⟨line, fault⟩
      | .ok grown => .ok { reader with current := some grown, comments := [] }

def openDocString (reader : Reader) (line : Nat) (fence : Fence) : Except GrammarError Reader :=
  if reader.current.any Element.awaitsArgument then
    .ok { reader with docString := some { fence, line, content := [] } }
  else .error ⟨line, .docStringWithoutStep⟩

def closeDocString (reader : Reader) (docString : OpenDocString) (line : Nat) : Reader :=
  let argument := Argument.docString docString.content docString.line line
  { reader with
    docString := none
    current := reader.current.map fun element => element.attach argument }

-----------------------------------------------------------------------------------------
-- Prose
-----------------------------------------------------------------------------------------

def addProse (reader : Reader) (line : Nat) (text : Text) : Except GrammarError Reader :=
  if !reader.tags.isEmpty then .error ⟨line, .tagsWithoutOwner⟩
  else
    match reader.current, reader.feature with
    | some element, _ =>
      match element.describe? text with
      | some described => .ok { reader with current := some described }
      | none => .error ⟨line, .misplacedProse text⟩
    | none, some feature =>
      if feature.isBare then
        .ok { reader with
          feature := some { feature with description := feature.description ++ [text] } }
      else .error ⟨line, .misplacedProse text⟩
    | none, none => .error ⟨line, .misplacedProse text⟩

-----------------------------------------------------------------------------------------
-- Whole texts
-----------------------------------------------------------------------------------------

def take (reader : Reader) (line : Nat) : Line → Except GrammarError Reader
  | .blank => .ok reader
  | .comment text => .ok { reader with comments := reader.comments ++ [⟨text, line⟩] }
  | .tags tokens => reader.addTags line tokens
  | .feature name => reader.openFeature line name
  | .element keyword name => reader.openElement line keyword name
  | .examples keyword name => reader.openExamples line keyword name
  | .step keyword text => reader.addStep line keyword text
  | .row text => reader.addRow line text
  | .fence fence => reader.openDocString line fence
  | .prose text => reader.addProse line text

/-- Takes one line. Inside a doc string only its own delimiter counts. -/
def takeRaw (reader : Reader) (line : Nat) (raw : Text) : Except GrammarError Reader :=
  match reader.docString with
  | some docString =>
    if trim raw = docString.fence.text then .ok (reader.closeDocString docString line)
    else
      .ok { reader with
        docString := some { docString with content := docString.content ++ [raw] } }
  | none => reader.take line (Line.of raw)

/-- Takes the lines one after another, the first of which has the given number. -/
def takeAll : Reader → Nat → List Text → Except GrammarError Reader
  | reader, _, [] => .ok reader
  | reader, line, raw :: rest =>
    match reader.takeRaw line raw with
    | .error error => .error error
    | .ok next => next.takeAll (line + 1) rest

/-- The feature that has been read, when nothing is left open. -/
def finish (reader : Reader) : Except GrammarError FeatureTree :=
  match reader.docString, reader.tags with
  | some docString, _ => .error ⟨docString.line, .unclosedDocString⟩
  | none, tag :: _ => .error ⟨tag.line, .tagsWithoutOwner⟩
  | none, [] =>
    match reader.closeElement.feature with
    | some feature => .ok feature
    | none => .error ⟨1, .noFeature⟩

end Reader

def FeatureTree.ofText : Grammar := fun text =>
  match Reader.start.takeAll 1 (lines text) with
  | .error error => .error error
  | .ok reader => reader.finish

end SuiteScore.Gherkin
