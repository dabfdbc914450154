import SuiteScore.Gherkin.Keyword
import SuiteScore.Text.Decimal

/-! Why a text is not a feature file. -/

namespace SuiteScore.Gherkin

open Text

/-- The causes for which a line is refused. -/
inductive Fault where
  | invalidTag (token : Text)
  | secondFeature
  | elementBeforeFeature (keyword : ElementKeyword)
  | lateBackground
  | examplesOutsideOutline (keyword : ExamplesKeyword)
  | tagsOnStep
  | stepAfterExamples
  | stepOutsideElement
  | unclosedRow
  | rowOutsideElement
  | rowWithoutStep
  | rowAfterDocString
  | docStringWithoutStep
  | tagsWithoutOwner
  | misplacedProse (line : Text)
  | unclosedDocString
  | noFeature
  /-- The reason that another grammar than the built-in one gives. -/
  | refused (reason : Text)
deriving DecidableEq, Repr

/-- A fault and the line it is found on. -/
structure GrammarError where
  line : Nat
  fault : Fault
deriving DecidableEq, Repr

def Fault.message : Fault → Text
  | invalidTag token => "invalid tag '" ++ token ++ "'"
  | secondFeature => "only one Feature is allowed per file"
  | elementBeforeFeature keyword => "'" ++ keyword.text ++ "' before Feature"
  | lateBackground => "Background must be the first element of a Feature"
  | examplesOutsideOutline keyword => "'" ++ keyword.text ++ "' outside of a Scenario Outline"
  | tagsOnStep => "tags cannot be applied to a step"
  | stepAfterExamples => "step after Examples"
  | stepOutsideElement => "step outside of a scenario"
  | unclosedRow => "table row must end with '|'"
  | rowOutsideElement => "table outside of a scenario"
  | rowWithoutStep => "table without a step"
  | rowAfterDocString => "step already has a doc string argument"
  | docStringWithoutStep => "doc string without a step"
  | tagsWithoutOwner => "tags must be followed by an element"
  | misplacedProse line => "unexpected line '" ++ line ++ "'"
  | unclosedDocString => "unterminated doc string"
  | noFeature => "no Feature keyword found"
  | refused reason => reason

def GrammarError.message (error : GrammarError) : Text :=
  "line " ++ ofNat error.line ++ ": " ++ error.fault.message

end SuiteScore.Gherkin
