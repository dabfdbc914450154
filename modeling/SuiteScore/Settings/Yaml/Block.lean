import SuiteScore.Settings.Digits
import SuiteScore.Settings.Yaml.Glyph

/-! Scalars that are blocks of lines with a common indentation. Where readers take a number of
steps, more than the number of glyphs is enough. -/

namespace SuiteScore.Settings.Yaml

open Text

/-- What becomes of the ends of lines at the end of a block. -/
inductive Chomping where
  /-- None is kept. -/
  | strip
  /-- That of the last line that is not empty is kept. -/
  | clip
  /-- All are kept. -/
  | keep
deriving DecidableEq, Repr

/-- What is said of a block before it starts. -/
structure BlockHeader where
  chomping : Chomping
  /-- How much further right than the place around it the block stands, when this is said. -/
  indentation : Option Nat
deriving DecidableEq, Repr

def chomping? (glyphs : Glyphs) : Option Chomping :=
  if startsWithAny "+" glyphs then some .keep
  else if startsWithAny "-" glyphs then some .strip
  else none

/-- The indentation that a digit asks for. Zero is refused when it is used. -/
def indentation? (glyphs : Glyphs) : Option Nat :=
  glyphs.head?.bind fun glyph => digitsIn? 10 [glyph.char]

/-- The header of a block, with its two signs in any order, and the glyphs after its line. -/
def readBlockHeader (text : Glyphs) : Option (BlockHeader × Glyphs) :=
  let (header, rest) : BlockHeader × Glyphs :=
    match chomping? text, indentation? text with
    | some chomping, _ =>
      let indentation := indentation? (text.drop 1)
      ({ chomping, indentation }, text.drop (if indentation.isSome then 2 else 1))
    | none, some indentation =>
      let chomping := chomping? (text.drop 1)
      ({ chomping := chomping.getD .clip, indentation := some indentation },
        text.drop (if chomping.isSome then 2 else 1))
    | none, none => ({ chomping := .clip, indentation := none }, text)
  if header.indentation = some 0 then none else (endLine? rest).map (header, ·)

/-- The ends of the empty lines before the next line of a block, the greatest indentation met so
far, and the glyphs from the text of the line on. As long as the indentation of the block is not
known all spaces are taken for it; a tab cannot take part in it. -/
def skipEmptyLines (indentation : Option Nat) : (widest : Nat) → Glyphs
    → Option (Text × Nat × Glyphs)
  | widest, [] => some ([], widest, [])
  | widest, glyph :: rest =>
    let isInside := indentation.all fun indentation => decide (glyph.column < indentation)
    if isInside && glyph.char == ' ' then
      skipEmptyLines indentation (max widest (glyph.column + 1)) rest
    else if isInside && glyph.char == '\t' then none
    else if glyph.isBreak then
      (skipEmptyLines indentation widest rest).map fun (breaks, widest, rest) =>
        (glyph.char :: breaks, widest, rest)
    else some ([], widest, glyph :: rest)

/-- The ends of lines between two lines of a block. Where lines are joined, the end of a line before
another stands for a space, and before empty lines for nothing, but not next to a line that starts
with a blank. -/
def joinLines (isFolded besideBlank : Bool) (lineEnd emptyLines : Text) : Text :=
  if isFolded && lineEnd == ['\n'] && !besideBlank then
    if emptyLines.isEmpty then [' '] else emptyLines
  else lineEnd ++ emptyLines

/-- The lines of a block from a place on, given the end of the line before, the ends of empty lines
after it, and whether that line started with a blank; also the ends of lines after the last line,
and the glyphs after the block. -/
def readBlockLines (isFolded : Bool) (indentation : Nat)
    : (steps : Nat) → (wasBlank : Bool) → (lineEnd emptyLines : Text) → Glyphs
      → Option (Text × Text × Text × Glyphs)
  | 0, _, _, _, _ => none
  | _, _, lineEnd, emptyLines, [] => some ([], lineEnd, emptyLines, [])
  | steps + 1, wasBlank, lineEnd, emptyLines, glyph :: rest =>
    if glyph.column ≠ indentation then some ([], lineEnd, emptyLines, glyph :: rest)
    else
      let gap := joinLines isFolded (wasBlank || glyph.isBlank) lineEnd emptyLines
      let (line, rest) := (glyph :: rest).span fun glyph => !glyph.isBreak
      (skipEmptyLines (some indentation) 0 (rest.drop 1)).bind fun (nextEmpty, _, next) =>
        (readBlockLines isFolded indentation steps glyph.isBlank (chars (rest.take 1)) nextEmpty
          next).map fun (text, ends) => (gap ++ chars line ++ text, ends)

/-- A block within a margin, given from after its sign, and the glyphs after it. -/
def readBlock (isFolded : Bool) (margin steps : Nat) (text : Glyphs) : Option (Text × Glyphs) :=
  (readBlockHeader text).bind fun (header, rest) =>
    let said := header.indentation.map fun indentation => margin - 1 + indentation
    (skipEmptyLines said 0 rest).bind fun (emptyLines, widest, rest) =>
      let indentation := said.getD (max (max widest margin) 1)
      (readBlockLines isFolded indentation steps false [] emptyLines rest).map
        fun (text, lineEnd, emptyLines, rest) =>
          match header.chomping with
          | .strip => (text, rest)
          | .clip => (text ++ lineEnd, rest)
          | .keep => (text ++ lineEnd ++ emptyLines, rest)

end SuiteScore.Settings.Yaml
