import SuiteScore.Text.Blank
import SuiteScore.Text.Word

/-! How a line of a support file changes the depth of nesting. Lines are read without the blanks
around them. -/

namespace SuiteScore.Support

open Text

def openingWords : List Text :=
  ["if", "unless", "while", "until", "case", "begin", "def", "class", "module", "for"]

/-- The words that open a block after an assignment, an append or a parenthesis. -/
def assignableWords : List Text :=
  ["if", "unless", "case", "begin", "while", "until"]

def isCommentOrEnd (rest : Text) : Bool :=
  match rest with
  | [] => true
  | '#' :: comment => !comment.contains '\n'
  | _ => false

/-- Whether what follows `do` ends the line: a parameter list between bars and a comment, each of
which can be missing. -/
def isDoTail (rest : Text) : Bool :=
  match trimStart rest with
  | '|' :: parameters => (cut? '|' parameters).any fun (_, tail) => isCommentOrEnd (trimStart tail)
  | tail => isCommentOrEnd tail

def endsWithDo (line : Text) : Bool :=
  anywhere
    (fun before rest =>
      isBoundary before rest && (("do" : Text).isPrefixOf? rest).any isDoTail)
    none line

def startsBlock (line : Text) : Bool :=
  openingWords.any fun word => startsWithWord word line

/-- Whether the rest of a line is an equals sign, an append sign or a parenthesis and then a word
that opens a block. -/
def assignsBlockAt (rest : Text) : Bool :=
  [("=" : Text), "<<", "("].any fun sign =>
    (sign.isPrefixOf? rest).any fun value =>
      assignableWords.any fun word => startsWithWord word (trimStart value)

/-- Whether a block is opened on the right of an assignment somewhere in the line. -/
def assignsBlock (line : Text) : Bool :=
  anywhere (fun _ rest => assignsBlockAt rest) none line

def startsWithEnd (line : Text) : Bool :=
  startsWithWord "end" line

/-- Whether the line ends with `end`, perhaps before a comment. -/
def endsWithEnd (line : Text) : Bool :=
  anywhere
    (fun before rest =>
      isBoundary before rest
        && (("end" : Text).isPrefixOf? rest).any fun tail => isCommentOrEnd (trimStart tail))
    none line

/-- By how much the line makes the nesting deeper: one for a block that it opens by a word, one
for a `do` at its end, and one less for an `end` that closes. -/
def nestingDelta (line : Text) : Int :=
  if line.head? = some '#' then 0
  else
    let opens := startsBlock line || assignsBlock line
    (if opens then 1 else 0) + (if endsWithDo line then 1 else 0)
      - (if startsWithEnd line || (opens && endsWithEnd line) then 1 else 0)

end SuiteScore.Support
