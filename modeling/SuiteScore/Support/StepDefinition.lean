import SuiteScore.Error
import SuiteScore.Support.Block
import SuiteScore.Target

/-! Step definitions: the code behind the steps of scenarios. -/

namespace SuiteScore.Support

open Text Gherkin

/-- What the header of a step definition says. The pattern keeps its delimiters. -/
structure DefinitionHeader where
  keyword : StepKeyword
  pattern : Text
  parameters : List Text
deriving DecidableEq, Repr

namespace DefinitionHeader

/-- The parameters after a pattern: a closing parenthesis that can be missing, `do`, and what can
follow it. -/
def readTail (text : Text) : Option (List Text) :=
  match ("do" : Text).isPrefixOf? (skipParenthesis ')' text) with
  | none => none
  | some rest =>
    match trimStart rest with
    | '|' :: names =>
      (cut? '|' names).bind fun (names, tail) =>
        if isCommentOrEnd (trimStart tail) then some (commaPieces names) else none
    | tail => if isCommentOrEnd tail then some [] else none

/-- The ways to read flags at the start of a text, the longest first, each as the flags and the
text after them. -/
def flagSplits (text : Text) : List (Text × Text) :=
  let flags := text.takeWhile fun c => 'a' ≤ c && c ≤ 'z'
  ((List.range (flags.length + 1)).map fun n => (text.take n, text.drop n)).reverse

/-- The ways to end a regular expression at a slash, the last slash first, each as the text before
the slash and the text after it. The expression holds no line feed. -/
def slashSplits : Text → List (Text × Text)
  | [] => []
  | c :: rest =>
    let later :=
      if c = '\n' then [] else (slashSplits rest).map fun (body, after) => (c :: body, after)
    if c = '/' then later ++ [([], rest)] else later

/-- A pattern that is a regular expression with flags, and the parameters after it. Of all ways to
end it, the first that a header can follow counts. -/
def readExpression (text : Text) : Option (Text × List Text) :=
  (slashSplits text).findSome? fun (body, after) =>
    (flagSplits after).findSome? fun (flags, rest) =>
      (readTail rest).map (("/" ++ body ++ "/" ++ flags : Text), ·)

/-- The text up to the next quote that has no backslash before it, and the text after that quote.
A backslash takes any character with it but a line feed. -/
def cutString? (quote : Char) : Text → Option (Text × Text)
  | [] => none
  | '\\' :: [] => none
  | '\\' :: c :: rest =>
    if c = '\n' then none
    else (cutString? quote rest).map fun (body, after) => ('\\' :: c :: body, after)
  | c :: rest =>
    if c = quote then some ([], rest)
    else (cutString? quote rest).map fun (body, after) => (c :: body, after)

def readString (quote : Char) (text : Text) : Option (Text × List Text) :=
  (cutString? quote text).bind fun (body, rest) =>
    (readTail rest).map (quote :: body ++ [quote], ·)

/-- The pattern and the parameters of a header after its keyword. -/
def readPattern (text : Text) : Option (Text × List Text) :=
  match skipParenthesis '(' text with
  | '/' :: rest => readExpression rest
  | '\x22' :: rest => readString '\x22' rest
  | '\x27' :: rest => readString '\x27' rest
  | _ => none

def ofLine (line : Text) : Option DefinitionHeader :=
  (definitionKeyword? line).bind fun (keyword, rest) =>
    (readPattern rest).map fun (pattern, parameters) => { keyword, pattern, parameters }

end DefinitionHeader

/-- A step definition with the lines of its body, comments apart from code. Its name is its
pattern and it has no tags. -/
structure StepDefinition extends Target where
  keyword : StepKeyword
  pattern : Text
  parameters : List Text
  code : List Text
  comments : List Text
deriving DecidableEq, Repr

def StepDefinition.ofBlock (location : Text) (lines : List Text)
    : Except SuiteError StepDefinition :=
  match BlockParts.ofLines lines with
  | .error fault => .error (.stepDefinition location (.block fault))
  | .ok parts =>
    match DefinitionHeader.ofLine parts.header with
    | none => .error (.stepDefinition location (.header parts.header))
    | some header =>
      .ok {
        location
        name := header.pattern
        tags := []
        keyword := header.keyword
        pattern := header.pattern
        parameters := header.parameters
        code := parts.code
        comments := parts.comments }

end SuiteScore.Support
