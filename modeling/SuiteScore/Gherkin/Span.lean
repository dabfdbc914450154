import SuiteScore.Gherkin.Tree

/-! The lines of a file that belong to one element. -/

namespace SuiteScore.Gherkin

/-- A range of lines, both ends included. -/
structure Span where
  first : Nat
  last : Nat
deriving DecidableEq, Repr

namespace Span

/-- The first line is the earliest among the comments, tags and keyword of the element. -/
def firstOf (element : Element) : Nat :=
  (element.comments.map (·.line) ++ element.tags.map (·.line)).foldl min element.line

/-- The last line is that of the last examples row, else the end of the last step, else as many
lines below the keyword as the description has. -/
def lastOf (element : Element) : Nat :=
  match element.examples.getLast?, element.steps.getLast? with
  | some examples, _ => (examples.rows.getLast?.map (·.line)).getD examples.line
  | none, some step => step.lastLine
  | none, none => element.line + element.description.length

def of (element : Element) : Span :=
  ⟨firstOf element, lastOf element⟩

def cut (span : Span) (lines : List Text) : List Text :=
  (lines.take span.last).drop (span.first - 1)

end Span

end SuiteScore.Gherkin
