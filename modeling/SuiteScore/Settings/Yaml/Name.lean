import SuiteScore.Settings.Yaml.Glyph
import SuiteScore.Settings.Yaml.Token

/-! Anchors, tags and directives. Readers start after the first sign and give what they read and the
glyphs after it; where they take a number of steps, the number of glyphs is enough. -/

namespace SuiteScore.Settings.Yaml

open Text

/-- The name of an anchor or an alias. Few signs can follow it directly. -/
def readAnchor (text : Glyphs) : Option (Text × Glyphs) :=
  let (name, rest) := splitName text
  if name.isEmpty then none
  else if isGapNext rest || startsWithAny "?:,]\x7d%@`" rest then some (name, rest)
  else none

/-- The characters of tags; the wide ones only between angle brackets and in directives. -/
def isTagChar (isWide : Bool) (c : Char) : Bool :=
  isNameChar c || (";/?:@&=+$.!~*\x27()" : Text).contains c
    || (isWide && (",[]" : Text).contains c)

/-- The octet that two hexadecimal digits after a percent sign give. -/
def readOctet (text : Glyphs) : Option (Nat × Glyphs) :=
  match text with
  | sign :: first :: second :: rest =>
    if sign.char = '%' then (digitsIn? 16 [first.char, second.char]).map (·, rest) else none
  | _ => none

def octetsAfter? (octet : Nat) : Option Nat :=
  if octet < 0x80 then some 0
  else if octet < 0xC0 then none
  else if octet < 0xE0 then some 1
  else if octet < 0xF0 then some 2
  else if octet < 0xF8 then some 3
  else none

def readOctets : (size : Nat) → Glyphs → Option (Text × Glyphs)
  | 0, text => some ([], text)
  | size + 1, text =>
    (readOctet text).bind fun (octet, rest) =>
      if octet / 64 = 2 then
        (readOctets size rest).map fun (octets, rest) => (Char.ofNat octet :: octets, rest)
      else none

/-- A character that is given by its octets. No character but those of one octet plays a part in a
tag, so that octets may stand for themselves. -/
def readEncoded (text : Glyphs) : Option (Text × Glyphs) :=
  (readOctet text).bind fun (octet, rest) =>
    (octetsAfter? octet).bind fun size =>
      (readOctets size rest).map fun (octets, rest) => (Char.ofNat octet :: octets, rest)

def readTagText (isWide : Bool) : (steps : Nat) → Glyphs → Option (Text × Glyphs)
  | 0, text => some ([], text)
  | _, [] => some ([], [])
  | steps + 1, glyph :: rest =>
    if glyph.char = '%' then
      (readEncoded (glyph :: rest)).bind fun (own, rest) =>
        (readTagText isWide steps rest).map fun (text, rest) => (own ++ text, rest)
    else if isTagChar isWide glyph.char then
      (readTagText isWide steps rest).map fun (text, rest) => (glyph.char :: text, rest)
    else some ([], glyph :: rest)

def readTagPart (isWide : Bool) (steps : Nat) (text : Glyphs) : Option (Text × Glyphs) :=
  (readTagText isWide steps text).bind fun (part, rest) =>
    if part.isEmpty then none else some (part, rest)

/-- The handle of a tag, which may be empty, and the rest of the tag. In angle brackets the tag is
written out; a tag without a second exclamation mark has the handle of one such mark, unless it
consists of nothing else. -/
def readTagParts (steps : Nat) (text : Glyphs) : Option (Text × Text × Glyphs) :=
  if startsWithAny "<" text then
    (readTagPart true steps (text.drop 1)).bind fun (tag, rest) =>
      if startsWithAny ">" rest then some ([], tag, rest.drop 1) else none
  else
    let (name, rest) := splitName text
    if startsWithAny "!" rest then
      (readTagPart false steps (rest.drop 1)).map fun (tag, rest) =>
        ('!' :: name ++ ['!'], tag, rest)
    else
      (readTagText false steps rest).map fun (tag, rest) =>
        if name.isEmpty && tag.isEmpty then ([], ['!'], rest) else (['!'], name ++ tag, rest)

/-- A tag. A gap follows it, or a comma within brackets. -/
def readTag (inBrackets : Bool) (steps : Nat) (text : Glyphs) : Option (Token × Glyphs) :=
  (readTagParts steps text).bind fun (handle, tag, rest) =>
    if isGapNext rest || (inBrackets && startsWithAny "," rest) then some (.tag handle tag, rest)
    else none

/-- A number of at most nine digits. -/
def readNumber (text : Glyphs) : Option (Nat × Glyphs) :=
  let (digits, rest) := text.span fun glyph => glyph.char.isDigit
  if digits.length > 9 then none else (digitsIn? 10 (chars digits)).map (·, rest)

/-- A version, of which two are known. -/
def readVersion (text : Glyphs) : Option (Token × Glyphs) :=
  (readNumber (skipBlanks text)).bind fun (major, rest) =>
    if startsWithAny "." rest then
      (readNumber (rest.drop 1)).map fun (minor, rest) =>
        (.version (major == 1 && (minor == 1 || minor == 2)), rest)
    else none

/-- The handle of a directive: one exclamation mark, or a name between two. -/
def readHandle (text : Glyphs) : Option (Text × Glyphs) :=
  if !startsWithAny "!" text then none
  else
    let (name, rest) := splitName (text.drop 1)
    if startsWithAny "!" rest then some ('!' :: name ++ ['!'], rest.drop 1)
    else if name.isEmpty then some (['!'], rest)
    else none

def readHandleMeaning (steps : Nat) (text : Glyphs) : Option (Token × Glyphs) :=
  (readHandle (skipBlanks text)).bind fun (name, rest) =>
    if !startsWithAny " \t" rest then none
    else
      (readTagPart true steps (skipBlanks rest)).bind fun (start, rest) =>
        if isGapNext rest then some (.handle name start, rest) else none

def readDirective (steps : Nat) (text : Glyphs) : Option (Token × Glyphs) :=
  let (name, rest) := splitName text
  let read :=
    if !isGapNext rest then none
    else if name = ("YAML" : Text) then readVersion rest
    else if name = ("TAG" : Text) then readHandleMeaning steps rest
    else none
  read.bind fun (token, rest) => (endLine? rest).map (token, ·)

end SuiteScore.Settings.Yaml
