import SuiteScore.Settings.Digits
import SuiteScore.Settings.Yaml.Glyph

/-! Scalars that can go over several lines: plain ones and those in quotes. Readers give the text of
the scalar and the glyphs after it; where they take a number of steps, the number of glyphs is
enough. -/

namespace SuiteScore.Settings.Yaml

open Text

def breaksIn (gap : Glyphs) : Text :=
  (chars gap).filter isBreak

/-- What a gap within a scalar stands for: blanks on one line for themselves, one end of line for a
space, and more ends of lines for all but the first. A separator that is the first stands for itself
too. -/
def fold (gap : Glyphs) : Text :=
  match breaksIn gap with
  | [] => chars gap
  | ['\n'] => [' ']
  | '\n' :: more => more
  | breaks => breaks

def isBracket (c : Char) : Bool :=
  (",[]\x7b\x7d" : Text).contains c

/-- Whether a plain scalar starts with a glyph. Some signs start one only directly before another
character, and none of them but the dash does so within brackets. -/
def startsPlain (inBrackets : Bool) (glyph : Glyph) (rest : Glyphs) : Bool :=
  let c := glyph.char
  if c = '-' then !isGapNext rest
  else if c = '?' ∨ c = ':' then !inBrackets && !isGapNext rest
  else !glyph.isGap && !isBracket c && !("#&*!|>\x27\x22%@`" : Text).contains c

/-- The glyphs of a plain scalar up to the next gap, and those after them. Within brackets a colon
is refused before a sign of theirs. -/
def readPlainWord (inBrackets : Bool) : Glyphs → Option (Text × Glyphs)
  | [] => some ([], [])
  | glyph :: rest =>
    if glyph.isGap then some ([], glyph :: rest)
    else if inBrackets && glyph.char == ':' && startsWithAny ",?[]\x7b\x7d" rest then none
    else if (glyph.char == ':' && isGapNext rest) || (inBrackets && isBracket glyph.char) then
      some ([], glyph :: rest)
    else (readPlainWord inBrackets rest).map fun (word, rest) => (glyph.char :: word, rest)

/-- Whether a tab takes part in the indentation of a line within a gap, which has to reach a
margin. -/
def hasIndentingTab (margin : Nat) (gap : Glyphs) : Bool :=
  (gap.dropWhile fun glyph => !glyph.isBreak).any fun glyph =>
    glyph.char == '\t' && decide (glyph.column < margin)

/-- A plain scalar, or the rest of one after a gap within it. On further lines it reaches a margin,
unless it stands within brackets. The flag says whether a line ended after the last word. -/
def readPlain (inBrackets : Bool) (margin : Nat)
    : (steps : Nat) → (gap : Glyphs) → Glyphs → Option (Text × Bool × Glyphs)
  | 0, _, _ => none
  | steps + 1, gap, text =>
    let isWrapped := !(breaksIn gap).isEmpty
    let isLeft := !inBrackets && isWrapped && text.head?.any fun glyph => glyph.column < margin
    if isLeft || isDocumentEdge text || startsWithAny "#" text then some ([], isWrapped, text)
    else
      (readPlainWord inBrackets text).bind fun (word, rest) =>
        if word.isEmpty then some ([], isWrapped, text)
        else
          let (next, rest) := splitGap rest
          if hasIndentingTab margin next then none
          else if next.isEmpty then some (fold gap ++ word, false, rest)
          else
            (readPlain inBrackets margin steps next rest).map fun (more, wrapped, rest) =>
              (fold gap ++ word ++ more, wrapped, rest)

def escapes : List (Char × Char) :=
  [('0', '\x00'), ('a', '\x07'), ('b', '\x08'), ('t', '\t'), ('\t', '\t'), ('n', '\n'),
    ('v', '\x0b'), ('f', '\x0c'), ('r', '\r'), ('e', '\x1b'), (' ', ' '), ('\x22', '\x22'),
    ('/', '/'), ('\\', '\\'), ('N', '\u0085'), ('_', '\u00a0'), ('L', '\u2028'), ('P', '\u2029')]

/-- The character of an escape, given its letter and the glyphs after that, and what follows. -/
def readEscape (letter : Char) (rest : Glyphs) : Option (Char × Glyphs) :=
  let size := codeSize letter
  if size = 0 then (escapes.find? fun entry => entry.1 = letter).map (·.2, rest)
  else (charOfHex? size (chars (rest.take size))).map (·, rest.drop size)

/-- The rest of a scalar in double quotes. A backslash starts an escape; at the end of a line it
drops this end and the blanks before the next word. -/
def readDouble : (steps : Nat) → Glyphs → Option (Text × Glyphs)
  | 0, _ => none
  | _, [] => none
  | steps + 1, glyph :: rest =>
    if isDocumentEdge (glyph :: rest) then none
    else if glyph.isGap then
      let (gap, next) := splitGap (glyph :: rest)
      (readDouble steps next).map fun (text, rest) => (fold gap ++ text, rest)
    else if glyph.char = '\x22' then some ([], rest)
    else if glyph.char = '\\' then
      match rest with
      | [] => none
      | letter :: rest =>
        if letter.isBreak then
          let (gap, next) := splitGap rest
          (readDouble steps next).map fun (text, rest) => (breaksIn gap ++ text, rest)
        else
          (readEscape letter.char rest).bind fun (own, rest) =>
            (readDouble steps rest).map fun (text, rest) => (own :: text, rest)
    else (readDouble steps rest).map fun (text, rest) => (glyph.char :: text, rest)

/-- The rest of a scalar in single quotes. The quote itself is written twice. -/
def readSingle : (steps : Nat) → Glyphs → Option (Text × Glyphs)
  | 0, _ => none
  | _, [] => none
  | steps + 1, glyph :: rest =>
    if isDocumentEdge (glyph :: rest) then none
    else if glyph.isGap then
      let (gap, next) := splitGap (glyph :: rest)
      (readSingle steps next).map fun (text, rest) => (fold gap ++ text, rest)
    else if glyph.char = '\x27' then
      if startsWithAny "\x27" rest then
        (readSingle steps (rest.drop 1)).map fun (text, rest) => ('\x27' :: text, rest)
      else some ([], rest)
    else (readSingle steps rest).map fun (text, rest) => (glyph.char :: text, rest)

end SuiteScore.Settings.Yaml
