import SuiteScore.Gherkin.Tree

/-! The kinds of lines in a feature file outside doc strings. -/

namespace SuiteScore.Gherkin

open Text

/-- What one line says, read without the blanks around it. -/
inductive Line where
  | blank
  | comment (text : Text)
  /-- The tokens of a tag line before the first that starts a comment. -/
  | tags (tokens : List Text)
  | feature (name : Text)
  | element (keyword : ElementKeyword) (name : Text)
  | examples (keyword : ExamplesKeyword) (name : Text)
  | step (keyword : StepKeyword) (text : Text)
  /-- A line that starts with a bar, not yet known to end with one. -/
  | row (text : Text)
  | fence (fence : Fence)
  | prose (text : Text)
deriving DecidableEq, Repr

namespace Line

def titled? (keyword line : Text) : Option Text :=
  ((keyword ++ ":").isPrefixOf? line).map trim

def feature? (line : Text) : Option Line :=
  (titled? FeatureTree.keyword line).map .feature

def element? (line : Text) : Option Line :=
  ElementKeyword.all.findSome? fun keyword => (titled? keyword.text line).map (.element keyword)

def examples? (line : Text) : Option Line :=
  ExamplesKeyword.all.findSome? fun keyword => (titled? keyword.text line).map (.examples keyword)

/-- A step keyword counts only with a blank after it. -/
def step? (line : Text) : Option Line :=
  match StepKeyword.open? line with
  | some (keyword, c :: rest) => if isBlank c then some (.step keyword (trimStart rest)) else none
  | _ => none

def row? (line : Text) : Option Line :=
  if line.head? = some '|' then some (.row line) else none

def fence? (line : Text) : Option Line :=
  if Fence.backticks.text.isPrefixOf line then some (.fence .backticks)
  else if Fence.quotes.text.isPrefixOf line then some (.fence .quotes)
  else none

/-- Reads a line without blanks around it. The first reading that fits wins; a line that fits
none is prose. -/
def ofTrimmed (line : Text) : Line :=
  match line with
  | [] => .blank
  | '#' :: _ => .comment line
  | '@' :: _ => .tags ((tokens line).takeWhile fun token => token.head? != some '#')
  | _ =>
    ((feature? line <|> element? line <|> examples? line <|> step? line <|> row? line
      <|> fence? line).getD (.prose line))

def of (raw : Text) : Line :=
  ofTrimmed (trim raw)

end Line

/-- Whether a token is a tag: an at sign and a name. -/
def isTag : Text → Bool
  | '@' :: _ :: _ => true
  | _ => false

/-- Whether a line that starts with a bar is a row: it also ends with one, and these are two
bars. -/
def isRow (line : Text) : Bool :=
  line.getLast? == some '|' && 2 ≤ line.length

/-- The cells between the bars of a row, without the blanks around them. -/
def cells (line : Text) : List Text :=
  let inner := match line with
    | '|' :: rest => rest
    | other => other
  let inner := if inner.getLast? = some '|' then inner.dropLast else inner
  (inner.splitOn '|').map trim

end SuiteScore.Gherkin
