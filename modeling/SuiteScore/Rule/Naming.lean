import SuiteScore.Text.Blank

/-! What names, tags and comments of features and scenarios are measured by. -/

namespace SuiteScore.Rule

open Text

def once (condition : Bool) : Nat :=
  if condition then 1 else 0

/-- Longer names, in bytes, are long. -/
def maxNameLength : Nat := 180

/-- More tags are too many. -/
def maxTags : Nat := 8

def isNameless (name : Text) : Bool :=
  (trim name).isEmpty

/-- Whether a name holds one of the ten ASCII digits. -/
def hasDigit (name : Text) : Bool :=
  name.any Char.isDigit

def isLong (name : Text) : Bool :=
  decide (maxNameLength < byteLength name)

def hasManyTags (tags : List Text) : Bool :=
  decide (maxTags < tags.length)

def commentsTagOut (comment : Text) : Bool :=
  (tokens (comment.dropWhile fun c => c == '#')).any fun token =>
    match token with
    | '@' :: _ :: _ => true
    | _ => false

def commentedTags (comments : List Text) : Nat :=
  comments.countP commentsTagOut

end SuiteScore.Rule
