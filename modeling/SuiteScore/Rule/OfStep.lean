import SuiteScore.Rule.Naming
import SuiteScore.Rule.Weight
import SuiteScore.Text.Word

/-! The built-in rules about steps. They see the line of a step as it stands in the file. -/

namespace SuiteScore.Rule

open Text Gherkin

/-- Words that say how a step is done rather than what it means. -/
def implementationWords : List Text :=
  ["page", "site", "url", "button", "drop down", "dropdown", "select list", "click", "text box",
    "radio button", "check box", "xml", "window", "pop up", "pop-up", "screen", "database"]

/-- The small form of a letter as far as ASCII letters are concerned. The Kelvin sign is a large k
and the long s is an s. -/
def smallLetter (c : Char) : Char :=
  if c.toNat = 0x212A then 'k' else if c.toNat = 0x17F then 's' else c.toLower

/-- The text after `word` at its start, whatever the case of the letters. -/
def afterLetters? : Text → Text → Option Text
  | [], text => some text
  | _ :: _, [] => none
  | letter :: word, c :: rest => if smallLetter c = letter then afterLetters? word rest else none

/-- Whether a line holds a word between two boundaries, whatever the case of its letters. -/
def uses (line word : Text) : Bool :=
  anywhere
    (fun before rest =>
      isBoundary before rest && (afterLetters? word rest).any (isBoundary word.getLast?))
    none line

/-- How many of the implementation words a step uses. Commented-out steps use none. -/
def implementationWordsIn (line : Text) : Nat :=
  if isCommented line || !isStepLine line then 0 else implementationWords.countP (uses line)

/-- The number of digits at the start of a text, and the text after them. -/
def digits (text : Text) : Nat × Text :=
  ((text.takeWhile isDecimalDigit).length, text.dropWhile isDecimalDigit)

/-- Whether a date stands at the start of a text: day, month and year with slashes, or a year of
four digits, month and day with hyphens. -/
def startsWithDate (text : Text) : Bool :=
  match digits text with
  | (first, '/' :: rest) =>
    match digits rest with
    | (second, '/' :: rest) =>
      let (third, rest) := digits rest
      (first == 1 || first == 2) && (second == 1 || second == 2) && 2 ≤ third && third ≤ 4
        && !rest.head?.any isWord
    | _ => false
  | (first, '-' :: rest) =>
    match digits rest with
    | (second, '-' :: rest) =>
      let (third, rest) := digits rest
      first == 4 && second == 2 && third == 2 && !rest.head?.any isWord
    | _ => false
  | _ => false

def hasDate (line : Text) : Bool :=
  anywhere (fun before rest => isBoundary before rest && startsWithDate rest) none line

def usesAsterisk (line : Text) : Bool :=
  ("* " : Text).isPrefixOf (trimStart line)

def ofStep : List Rule :=
  [
    builtIn "step_commented" info "is commented out."
      (.step fun line => once (isCommented line)),
    builtIn "step_asterisk" warning "uses * instead of a keyword."
      (.step fun line => once (usesAsterisk line)),
    builtIn "step_implementation_word" info "uses an implementation word."
      (.step implementationWordsIn),
    builtIn "step_date_used" info "uses a hard coded date."
      (.step fun line => once (!isCommented line && hasDate line))
  ]

end SuiteScore.Rule
