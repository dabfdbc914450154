import SuiteScore.Text.Basic

/-! The characters of a YAML file with their places. -/

namespace SuiteScore.Settings.Yaml

open Text

def isPrintable (c : Char) : Bool :=
  let n := c.toNat
  n == 0x09 || n == 0x0A || n == 0x0D || (0x20 ≤ n && n ≤ 0x7E) || n == 0x85
    || (0xA0 ≤ n && n ≤ 0xFFFD) || 0x10000 ≤ n

/-- Characters that end a line. -/
def isBreak (c : Char) : Bool :=
  let n := c.toNat
  n == 0x0A || n == 0x0D || n == 0x85 || n == 0x2028 || n == 0x2029

def isBlank (c : Char) : Bool :=
  c == ' ' || c == '\t'

/-- The characters of names: of anchors, of directives and of the handles of tags. -/
def isNameChar (c : Char) : Bool :=
  c.isAlphanum || c == '_' || c == '-'

/-- What the end of a line stands for. A line separator and a paragraph separator stand for
themselves, all others for the same. -/
def breakOf (c : Char) : Char :=
  if c.toNat = 0x2028 ∨ c.toNat = 0x2029 then c else '\n'

/-- A character and its place: the number of characters before it, its line and its column. -/
structure Glyph where
  char : Char
  index : Nat
  line : Nat
  column : Nat
deriving DecidableEq, Repr

namespace Glyph

def isBreak (glyph : Glyph) : Bool :=
  Yaml.isBreak glyph.char

def isBlank (glyph : Glyph) : Bool :=
  Yaml.isBlank glyph.char

def isGap (glyph : Glyph) : Bool :=
  glyph.isBlank || glyph.isBreak

end Glyph

/-- A text whose characters have places. -/
abbrev Glyphs := List Glyph

/-- The glyphs of a text from a place on. The two characters of an end of line are one glyph. -/
def glyphsFrom : (index line column : Nat) → Text → Glyphs
  | _, _, _, [] => []
  | index, line, column, '\r' :: '\n' :: rest =>
    ⟨'\n', index, line, column⟩ :: glyphsFrom (index + 2) (line + 1) 0 rest
  | index, line, column, c :: rest =>
    if isBreak c then ⟨breakOf c, index, line, column⟩ :: glyphsFrom (index + 1) (line + 1) 0 rest
    else ⟨c, index, line, column⟩ :: glyphsFrom (index + 1) line (column + 1) rest

/-- The glyphs of a file. A byte order mark before it stands for nothing but has its column. -/
def glyphsOf (text : Text) : Glyphs :=
  match glyphsFrom 0 0 0 text with
  | [] => []
  | first :: rest => if first.char = '\ufeff' then rest else first :: rest

def chars (glyphs : Glyphs) : Text :=
  glyphs.map (·.char)

def startsWithAny (signs : Text) (glyphs : Glyphs) : Bool :=
  glyphs.head?.any fun glyph => signs.contains glyph.char

def isGapNext (glyphs : Glyphs) : Bool :=
  glyphs.head?.all Glyph.isGap

/-- Whether three characters that separate documents come next, alone at the start of a line. -/
def isAt (sign : Text) (glyphs : Glyphs) : Bool :=
  glyphs.head?.any (·.column == 0) && chars (glyphs.take 3) == sign && isGapNext (glyphs.drop 3)

def isDocumentEdge (glyphs : Glyphs) : Bool :=
  isAt "---" glyphs || isAt "..." glyphs

def splitGap (glyphs : Glyphs) : Glyphs × Glyphs :=
  glyphs.span Glyph.isGap

def splitName (glyphs : Glyphs) : Text × Glyphs :=
  let (name, rest) := glyphs.span fun glyph => isNameChar glyph.char
  (chars name, rest)

def skipBlanks (glyphs : Glyphs) : Glyphs :=
  glyphs.dropWhile Glyph.isBlank

/-- The glyphs after the rest of a line that holds nothing but blanks and a comment. -/
def endLine? (glyphs : Glyphs) : Option Glyphs :=
  let rest : Glyphs := match skipBlanks glyphs with
    | [] => []
    | glyph :: rest =>
      if glyph.char = '#' then rest.dropWhile fun own => !own.isBreak else glyph :: rest
  match rest with
  | [] => some []
  | glyph :: rest => if glyph.isBreak then some rest else none

end SuiteScore.Settings.Yaml
