import SuiteScore.Gherkin.Keyword
import SuiteScore.Support.Fault
import SuiteScore.Support.Nesting
import SuiteScore.Text.Lines

/-! The blocks of a support file. A block starts with the header of a hook or a step definition
and goes on as long as its nesting is not closed. -/

namespace SuiteScore.Support

open Text Gherkin

-----------------------------------------------------------------------------------------
-- Headers
-----------------------------------------------------------------------------------------

/-- What a block declares. -/
inductive BlockKind where
  | hook
  | stepDefinition
deriving DecidableEq, Repr

/-- The moments at which hooks run. -/
inductive HookType where
  | before
  | after
  | around
  | beforeStep
  | afterStep
  | afterConfiguration
  | atExit
deriving DecidableEq, Repr

def HookType.text : HookType → Text
  | before => "Before"
  | after => "After"
  | around => "Around"
  | beforeStep => "BeforeStep"
  | afterStep => "AfterStep"
  | afterConfiguration => "AfterConfiguration"
  | atExit => "AtExit"

/-- The words that declare hooks. Exit hooks have two spellings. -/
def HookType.words : List (Text × HookType) :=
  [("Before", .before), ("After", .after), ("Around", .around), ("BeforeStep", .beforeStep),
    ("AfterStep", .afterStep), ("AfterConfiguration", .afterConfiguration), ("AtExit", .atExit),
    ("at_exit", .atExit)]

def definitionKeywords : List StepKeyword :=
  [.context, .action, .outcome, .conjunction, .contrast]

/-- The step definition keyword at the start of a line, with the text after it. -/
def definitionKeyword? (line : Text) : Option (StepKeyword × Text) :=
  definitionKeywords.findSome? fun keyword =>
    (keyword.text.isPrefixOf? line).map (keyword, ·)

/-- The text without a parenthesis at its start and without blanks before and after it. -/
def skipParenthesis (sign : Char) (text : Text) : Text :=
  match trimStart text with
  | [] => []
  | c :: rest => if c = sign then trimStart rest else c :: rest

/-- Whether a line looks like the header of a hook: the word for one, and later `do`. -/
def isHookHeader (line : Text) : Bool :=
  HookType.words.any fun (word, _) =>
    (afterWord? word line).any fun rest => hasWord "do" word.getLast? rest

/-- Whether a line looks like the header of a step definition: its keyword, the delimiter of a
pattern, and later `do`. -/
def isDefinitionHeader (line : Text) : Bool :=
  (definitionKeyword? line).any fun (_, rest) =>
    match skipParenthesis '(' rest with
    | c :: pattern =>
      (c == '/' || c == '\x27' || c == '\x22') && hasWord "do" (some c) pattern
    | [] => false

def headerKind? (line : Text) : Option BlockKind :=
  if isHookHeader line then some .hook
  else if isDefinitionHeader line then some .stepDefinition
  else none

-----------------------------------------------------------------------------------------
-- Blocks of a file
-----------------------------------------------------------------------------------------

/-- The lines of one block and the number of the first. -/
structure Block where
  kind : BlockKind
  line : Nat
  lines : List Text
deriving DecidableEq, Repr

/-- A block that goes on, with its depth of nesting. -/
structure OpenBlock where
  block : Block
  depth : Int
deriving DecidableEq, Repr

/-- The blocks found so far, the block that goes on, and the number of the next line. -/
structure BlockScan where
  next : Nat
  closed : List Block
  opened : Option OpenBlock
deriving DecidableEq, Repr

namespace BlockScan

def start (line : Nat) : BlockScan :=
  { next := line, closed := [], opened := none }

/-- Puts a block where its depth says: it is closed unless the depth is positive. -/
def place (scan : BlockScan) (block : Block) (depth : Int) : BlockScan :=
  if depth ≤ 0 then
    { next := scan.next + 1, closed := scan.closed ++ [block], opened := none }
  else { next := scan.next + 1, closed := scan.closed, opened := some ⟨block, depth⟩ }

/-- Takes one line: it belongs to the block that goes on, or opens one, or to none. -/
def take (scan : BlockScan) (raw : Text) : BlockScan :=
  let line := trim raw
  match scan.opened with
  | some ⟨block, depth⟩ =>
    scan.place { block with lines := block.lines ++ [raw] } (depth + nestingDelta line)
  | none =>
    match headerKind? line with
    | some kind => scan.place { kind, line := scan.next, lines := [raw] } (nestingDelta line)
    | none => { scan with next := scan.next + 1 }

/-- All blocks, the last of which may still go on. -/
def blocks (scan : BlockScan) : List Block :=
  scan.closed ++ (scan.opened.map (·.block)).toList

end BlockScan

def blocksOfLines (lines : List Text) : List Block :=
  (lines.foldl BlockScan.take (.start 1)).blocks

/-- The blocks of a support file. A block that is still open at the end is among them. -/
def blocks (source : Text) : List Block :=
  blocksOfLines (Text.lines source)

-----------------------------------------------------------------------------------------
-- Parts of a block
-----------------------------------------------------------------------------------------

/-- A line between the header and the end of a block. -/
inductive BodyLine where
  | comment (text : Text)
  | code (text : Text)
deriving DecidableEq, Repr

def BodyLine.of (line : Text) : BodyLine :=
  if line.head? = some '#' then .comment line else .code line

def BodyLine.comment? : BodyLine → Option Text
  | .comment text => some text
  | .code _ => none

def BodyLine.code? : BodyLine → Option Text
  | .comment _ => none
  | .code text => some text

/-- A block without blank lines: its header and the lines before its end. -/
structure BlockParts where
  header : Text
  body : List BodyLine
deriving DecidableEq, Repr

namespace BlockParts

def isEnd (line : Text) : Bool :=
  line == ("end" : Text) || ("end #" : Text).isPrefixOf line

def ofLines (lines : List Text) : Except BlockFault BlockParts :=
  match (lines.map trim).filter (fun line => !line.isEmpty) with
  | [] => .error .empty
  | header :: rest =>
    if rest.getLast?.any isEnd then .ok { header, body := rest.dropLast.map BodyLine.of }
    else .error .noEnd

def comments (parts : BlockParts) : List Text :=
  parts.body.filterMap BodyLine.comment?

def code (parts : BlockParts) : List Text :=
  parts.body.filterMap BodyLine.code?

end BlockParts

end SuiteScore.Support
