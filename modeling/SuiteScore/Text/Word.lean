import SuiteScore.Text.Alphabetic
import SuiteScore.Text.Mark
import SuiteScore.Text.Number

/-! Characters of words, and the places where a word begins or ends. -/

namespace SuiteScore.Text

/-- Characters that words are made of: letters, marks, digits, connecting punctuation and the two
joining marks without width. -/
def isWord (c : Char) : Bool :=
  if c.toNat < 128 then c.isAlphanum || c == '_'
  else
    isAlphabetic c || isMark c || isDecimalDigit c
      || inRanges
          [(0x200C, 0x200D), (0x203F, 0x2040), (0x2054, 0x2054), (0xFE33, 0xFE34),
            (0xFE4D, 0xFE4F), (0xFF3F, 0xFF3F)]
          c.toNat

/-- Letters and numbers. -/
def isAlphanumeric (c : Char) : Bool :=
  isAlphabetic c || isDecimalDigit c || isOtherNumber c

/-- Whether exactly one of the characters before and after a position belongs to a word. -/
def isBoundary (before : Option Char) (rest : Text) : Bool :=
  before.any isWord != rest.head?.any isWord

/-- The text after `word` at its start, when a boundary follows the word. -/
def afterWord? (word text : Text) : Option Text :=
  (word.isPrefixOf? text).filter (isBoundary word.getLast?)

def startsWithWord (word text : Text) : Bool :=
  (afterWord? word text).isSome

/-- Whether `word` stands between two boundaries somewhere in the text, which `before` precedes. -/
def hasWord (word : Text) (before : Option Char) (text : Text) : Bool :=
  anywhere (fun before rest => isBoundary before rest && startsWithWord word rest) before text

end SuiteScore.Text
