import SuiteScore.Settings.Yaml.Block
import SuiteScore.Settings.Yaml.Name
import SuiteScore.Settings.Yaml.Wrapped

/-! From the glyphs of a file to its tokens. Where blocks begin and end follows from columns; that
something is a key is only known at the colon after it, so that its token is then put before it. -/

namespace SuiteScore.Settings.Yaml

open Text

-----------------------------------------------------------------------------------------
-- Keys
-----------------------------------------------------------------------------------------

/-- Where a key may have started: its place, the number of tokens before it, and whether nothing but
a key can stand there. -/
structure KeyStart where
  glyph : Glyph
  number : Nat
  isRequired : Bool
deriving DecidableEq, Repr

/-- The number of characters that a key can have with all that stands before its colon. -/
def maxKeyLength : Nat := 1024

/-- Whether what started as a key can no longer be one, since its colon would be on another line or
too far away. -/
def KeyStart.isPast (key : KeyStart) (here : Glyph) : Bool :=
  decide (key.glyph.line < here.line) || decide (key.glyph.index + maxKeyLength < here.index)

/-- A key that may have started, as long as it still can be one. Nothing if it cannot be but has
to. -/
def KeyStart.renew (here : Glyph) (key : Option KeyStart) : Option (Option KeyStart) :=
  match key with
  | none => some none
  | some start =>
    if !start.isPast here then some key else if start.isRequired then none else some none

-----------------------------------------------------------------------------------------
-- Layouts
-----------------------------------------------------------------------------------------

/-- What is known of a file up to a place. -/
structure Layout where
  /-- The tokens, last first. -/
  tokens : List Token
  /-- The number of tokens. -/
  count : Nat
  /-- The least columns of what stands within the open blocks, innermost first. -/
  margins : List Nat
  /-- Whether a key can start here. -/
  takesKey : Bool
  /-- The key that may have started last. -/
  key : Option KeyStart
  /-- The same for what stands around each pair of open brackets, innermost first. -/
  outerKeys : List (Option KeyStart)
deriving DecidableEq, Repr

namespace Layout

def start : Layout :=
  { tokens := [], count := 0, margins := [], takesKey := true, key := none, outerKeys := [] }

def inBrackets (layout : Layout) : Bool :=
  !layout.outerKeys.isEmpty

def margin (layout : Layout) : Nat :=
  layout.margins.headD 0

def add (token : Token) (layout : Layout) : Layout :=
  { layout with tokens := token :: layout.tokens, count := layout.count + 1 }

def insert (number : Nat) (token : Token) (layout : Layout) : Layout :=
  let (after, before) := layout.tokens.splitAt (layout.count - number)
  { layout with tokens := after ++ token :: before, count := layout.count + 1 }

def allowKey (takesKey : Bool) (layout : Layout) : Layout :=
  { layout with takesKey }

/-- Opens a block at a column, where there was a number of tokens, unless a block is open there.
Within brackets there are no blocks. -/
def openBlock (token : Token) (column number : Nat) (layout : Layout) : Layout :=
  if layout.inBrackets || decide (column < layout.margin) then layout
  else { layout.insert number token with margins := (column + 1) :: layout.margins }

def closeBlocks (margin : Nat) (layout : Layout) : Layout :=
  if layout.inBrackets then layout
  else
    let (closed, margins) := layout.margins.span fun own => decide (margin < own)
    { layout with
      tokens := List.replicate closed.length .blockEnd ++ layout.tokens
      count := layout.count + closed.length
      margins }

/-- Gives up the key that may have started, unless there has to be one. -/
def dropKey (layout : Layout) : Option Layout :=
  if layout.key.any (·.isRequired) then none else some { layout with key := none }

/-- Notes that a key may start at a place, if one can. In a block there has to be one at the column
of those before. -/
def noteKey (glyph : Glyph) (layout : Layout) : Option Layout :=
  if !layout.takesKey then some layout
  else
    let isRequired := !layout.inBrackets && layout.margin == glyph.column + 1
    layout.dropKey.map fun layout =>
      { layout with key := some { glyph, number := layout.count, isRequired } }

def renewKeys (here : Glyph) (layout : Layout) : Option Layout :=
  (KeyStart.renew here layout.key).bind fun key =>
    (layout.outerKeys.mapM (KeyStart.renew here)).map fun outerKeys =>
      { layout with key, outerKeys }

-----------------------------------------------------------------------------------------
-- Signs
-----------------------------------------------------------------------------------------

def openBrackets (token : Token) (glyph : Glyph) (layout : Layout) : Option Layout :=
  (layout.noteKey glyph).map fun layout =>
    { layout.add token with
      takesKey := true, key := none, outerKeys := layout.key :: layout.outerKeys }

/-- Closes brackets. No key starts after them. -/
def closeBrackets (token : Token) (layout : Layout) : Option Layout :=
  layout.dropKey.map fun layout =>
    match layout.outerKeys with
    | [] => (layout.add token).allowKey false
    | key :: outerKeys => { layout.add token with takesKey := false, key, outerKeys }

def addComma (layout : Layout) : Option Layout :=
  layout.dropKey.map fun layout => (layout.add .comma).allowKey true

/-- Adds the sign before an item or a key, which stands where a key can start and opens a block of
its own. -/
def addMark (block token : Token) (takesKey : Bool) (glyph : Glyph) (layout : Layout)
    : Option Layout :=
  if !layout.inBrackets && !layout.takesKey then none
  else
    (layout.openBlock block glyph.column layout.count).dropKey.map fun layout =>
      (layout.add token).allowKey takesKey

def addItem (glyph : Glyph) (layout : Layout) : Option Layout :=
  layout.addMark .blockList .item true glyph

def addKey (glyph : Glyph) (layout : Layout) : Option Layout :=
  layout.addMark .blockMap .key (!layout.inBrackets) glyph

/-- Adds the sign before a value. If a key may have started before it, that was one, and it opens a
block at its column. -/
def addValue (glyph : Glyph) (layout : Layout) : Option Layout :=
  match layout.key with
  | some key =>
    let layout := (layout.insert key.number .key).openBlock .blockMap key.glyph.column key.number
    some { layout.add .value with takesKey := false, key := none }
  | none =>
    if layout.inBrackets then some ((layout.add .value).allowKey false)
    else if !layout.takesKey then none
    else
      some (((layout.openBlock .blockMap glyph.column layout.count).add .value).allowKey true)

/-- Adds what ends all blocks and starts at the beginning of a line. -/
def addOutside (token : Token) (layout : Layout) : Option Layout :=
  (layout.closeBlocks 0).dropKey.map fun layout => (layout.add token).allowKey false

def addNode (glyph : Glyph) (token : Token) (layout : Layout) : Option Layout :=
  (layout.noteKey glyph).map fun layout => (layout.add token).allowKey false

-----------------------------------------------------------------------------------------
-- Tokens
-----------------------------------------------------------------------------------------

def readBlock (isFolded : Bool) (steps : Nat) (rest : Glyphs) (layout : Layout)
    : Option (Layout × Glyphs) :=
  layout.dropKey.bind fun layout =>
    (Yaml.readBlock isFolded layout.margin steps rest).map fun (text, rest) =>
      let style := if isFolded then Style.folded else Style.literal
      ((layout.add (.scalar style text)).allowKey true, rest)

def readQuoted (steps : Nat) (glyph : Glyph) (rest : Glyphs) (layout : Layout)
    : Option (Layout × Glyphs) :=
  let read := if glyph.char = '\x27' then readSingle steps rest else readDouble steps rest
  read.bind fun (text, rest) =>
    (layout.addNode glyph (.scalar .quoted text)).map (·, rest)

/-- Reads a plain scalar. A key can start after the end of its line. -/
def readPlain (steps : Nat) (glyph : Glyph) (rest : Glyphs) (layout : Layout)
    : Option (Layout × Glyphs) :=
  if !startsPlain layout.inBrackets glyph rest then none
  else
    (Yaml.readPlain layout.inBrackets layout.margin steps [] (glyph :: rest)).bind
      fun (text, isWrapped, rest) =>
        (layout.addNode glyph (.scalar .plain text)).map fun layout =>
          (if isWrapped then layout.allowKey true else layout, rest)

/-- Reads the tokens that start with a glyph, given the glyphs after it. -/
def readToken (steps : Nat) (glyph : Glyph) (rest : Glyphs) (layout : Layout)
    : Option (Layout × Glyphs) :=
  let c := glyph.char
  let isSign := layout.inBrackets || isGapNext rest
  if c = '%' ∧ glyph.column = 0 then
    (readDirective steps rest).bind fun (token, rest) => (layout.addOutside token).map (·, rest)
  else if isAt "---" (glyph :: rest) then
    (layout.addOutside .documentStart).map (·, rest.drop 2)
  else if isAt "..." (glyph :: rest) then
    (layout.addOutside .documentEnd).map (·, rest.drop 2)
  else if c = '[' then (layout.openBrackets .listStart glyph).map (·, rest)
  else if c = '\x7b' then (layout.openBrackets .mapStart glyph).map (·, rest)
  else if c = ']' then (layout.closeBrackets .listEnd).map (·, rest)
  else if c = '\x7d' then (layout.closeBrackets .mapEnd).map (·, rest)
  else if c = ',' then layout.addComma.map (·, rest)
  else if c = '-' ∧ isGapNext rest then (layout.addItem glyph).map (·, rest)
  else if c = '?' ∧ isSign then (layout.addKey glyph).map (·, rest)
  else if c = ':' ∧ isSign then (layout.addValue glyph).map (·, rest)
  else if c = '*' then
    (readAnchor rest).bind fun (name, rest) =>
      (layout.addNode glyph (.reference name)).map (·, rest)
  else if c = '&' then
    (readAnchor rest).bind fun (name, rest) => (layout.addNode glyph (.anchor name)).map (·, rest)
  else if c = '!' then
    (readTag layout.inBrackets steps rest).bind fun (tag, rest) =>
      (layout.addNode glyph tag).map (·, rest)
  else if c = '|' ∧ !layout.inBrackets then layout.readBlock false steps rest
  else if c = '>' ∧ !layout.inBrackets then layout.readBlock true steps rest
  else if c = '\x27' ∨ c = '\x22' then layout.readQuoted steps glyph rest
  else layout.readPlain steps glyph rest

/-- The glyphs from the next token on, past blanks, comments and ends of lines, and whether a key
can start there. The end of a line lets a key start except within brackets. A tab is a blank only
within brackets and where no key can start. -/
def skipGap (inBrackets : Bool) : (takesKey inComment : Bool) → Glyphs → Bool × Glyphs
  | takesKey, _, [] => (takesKey, [])
  | takesKey, inComment, glyph :: rest =>
    if glyph.isBreak then skipGap inBrackets (takesKey || !inBrackets) false rest
    else if inComment || glyph.char == ' '
        || (glyph.char == '\t' && (inBrackets || !takesKey)) then
      skipGap inBrackets takesKey inComment rest
    else if glyph.char = '#' then skipGap inBrackets takesKey true rest
    else (takesKey, glyph :: rest)

/-- The tokens of a file, given the layout up to a place. The number of steps exceeds that of the
glyphs, and so it does for what each token is read from. -/
def readFrom : (steps : Nat) → Layout → Glyphs → Option (List Token)
  | 0, _, _ => none
  | steps + 1, layout, text =>
    let (takesKey, text) := skipGap layout.inBrackets layout.takesKey false text
    match text with
    | [] => (layout.closeBlocks 0).dropKey.map fun layout => layout.tokens.reverse
    | glyph :: rest =>
      ((layout.allowKey takesKey).renewKeys glyph).bind fun layout =>
        ((layout.closeBlocks (glyph.column + 1)).readToken (steps + 1) glyph rest).bind
          fun (layout, rest) => readFrom steps layout rest

end Layout

def tokens? (text : Text) : Option (List Token) :=
  if !text.all isPrintable then none
  else
    let glyphs := glyphsOf text
    Layout.readFrom (glyphs.length + 1) .start glyphs

end SuiteScore.Settings.Yaml
