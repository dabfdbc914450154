import SuiteScore.Settings.Digits

/-! Blanks, comments and strings of TOML files. Readers take a text and give what they read and the
text after it. -/

namespace SuiteScore.Settings.Toml

open Text

-----------------------------------------------------------------------------------------
-- Blanks and comments
-----------------------------------------------------------------------------------------

def isSpace (c : Char) : Bool :=
  c == ' ' || c == '\t'

def skipSpace (text : Text) : Text :=
  text.dropWhile isSpace

/-- Characters that stand for nothing and are refused. A tab is none of them. -/
def isControl (c : Char) : Bool :=
  (c.toNat < 0x20 && c != '\t') || c.toNat == 0x7F

def skipComment (text : Text) : Option Text :=
  match text.dropWhile fun c => !isControl c with
  | [] => some []
  | '\n' :: rest => some ('\n' :: rest)
  | '\r' :: '\n' :: rest => some ('\n' :: rest)
  | _ => none

/-- The text after the rest of a line, which holds nothing but a comment. -/
def endLine (text : Text) : Option Text :=
  let rest := match skipSpace text with
    | '#' :: comment => skipComment comment
    | other => some other
  match rest with
  | some [] => some []
  | some ('\n' :: rest) => some rest
  | some ('\r' :: '\n' :: rest) => some rest
  | _ => none

/-- The text after spaces, comments and ends of lines. The flag says whether a comment goes on. -/
def skipLines : Bool → Text → Option Text
  | _, [] => some []
  | _, '\n' :: rest => skipLines false rest
  | _, '\r' :: '\n' :: rest => skipLines false rest
  | true, c :: rest => if isControl c then none else skipLines true rest
  | false, c :: rest =>
    if isSpace c then skipLines false rest
    else if c = '#' then skipLines true rest
    else some (c :: rest)

-----------------------------------------------------------------------------------------
-- Strings
-----------------------------------------------------------------------------------------

def escapes : List (Char × Char) :=
  [('b', '\x08'), ('t', '\t'), ('n', '\n'), ('f', '\x0c'), ('r', '\r'), ('e', '\x1b'),
    ('\x22', '\x22'), ('\\', '\\')]

/-- The character of an escape and the number of characters after the backslash. -/
def readEscape (text : Text) : Option (Char × Nat) :=
  match text with
  | [] => none
  | c :: rest =>
    if codeSize c = 0 then (escapes.find? fun entry => entry.1 = c).map (·.2, 1)
    else (charOfHex? (codeSize c) rest).map (·, codeSize c + 1)

/-- The rest of a string on one line and the text after its closing quote. In a basic string a
backslash starts an escape. The number counts the characters of an escape that are still to be
passed. -/
def readString (basic : Bool) (quote : Char) : Nat → Text → Option (Text × Text)
  | _, [] => none
  | passed + 1, _ :: rest => readString basic quote passed rest
  | 0, c :: rest =>
    if c = quote then some ([], rest)
    else if isControl c then none
    else if basic && c == '\\' then
      (readEscape rest).bind fun (own, size) =>
        (readString basic quote size rest).map fun (text, rest) => (own :: text, rest)
    else (readString basic quote 0 rest).map fun (text, rest) => (c :: text, rest)

/-- Whether a character can stand in a string over many lines, given the text after it. A carriage
return stands only before the end of a line. -/
def isInLongString (c : Char) (rest : Text) : Bool :=
  if c = '\r' then rest.head? == some '\n' else !isControl c || c == '\n'

/-- A string over many lines as it is written and the text after its three closing quotes. Up to
two quotes directly before them belong to the string, and in a basic string no character after a
backslash closes it. -/
def cutLongString (basic : Bool) (quote : Char) : Text → Option (Text × Text)
  | [] => none
  | c :: rest =>
    if [quote, quote, quote].isPrefixOf (c :: rest) then
      let own := min ((rest.takeWhile (· == quote)).length - 2) 2
      some (List.replicate own quote, rest.drop (own + 2))
    else if !isInLongString c rest then none
    else if basic && c == '\\' then
      match rest with
      | [] => none
      | d :: rest =>
        if !isInLongString d rest then none
        else (cutLongString basic quote rest).map fun (text, rest) => (c :: d :: text, rest)
    else (cutLongString basic quote rest).map fun (text, rest) => (c :: text, rest)

def isLineEnd (text : Text) : Bool :=
  match skipSpace text with
  | '\n' :: _ => true
  | '\r' :: '\n' :: _ => true
  | _ => false

/-- The text that a basic string over many lines stands for. A backslash at the end of a line drops
all blanks and ends of lines after it. The number counts the characters of an escape that are still
to be passed, and the flag says whether blanks are dropped. -/
def resolveLongString : Nat → Bool → Text → Option Text
  | _, _, [] => some []
  | passed + 1, dropping, _ :: rest => resolveLongString passed dropping rest
  | 0, dropping, c :: rest =>
    if dropping && (isSpace c || c == '\n' || c == '\r') then resolveLongString 0 true rest
    else if c = '\\' then
      if isLineEnd rest then resolveLongString 0 true rest
      else
        (readEscape rest).bind fun (own, size) =>
          (resolveLongString size false rest).map (own :: ·)
    else (resolveLongString 0 false rest).map (c :: ·)

def skipLineEnd (text : Text) : Text :=
  match text with
  | '\n' :: rest => rest
  | '\r' :: '\n' :: rest => rest
  | other => other

/-- A string over many lines, given from after its opening quotes, and the text after it. -/
def readLongString (basic : Bool) (quote : Char) (text : Text) : Option (Text × Text) :=
  (cutLongString basic quote (skipLineEnd text)).bind fun (written, rest) =>
    if basic then (resolveLongString 0 false written).map (·, rest) else some (written, rest)

-----------------------------------------------------------------------------------------
-- Keys
-----------------------------------------------------------------------------------------

def isBare (c : Char) : Bool :=
  c.isAlphanum || c == '_' || c == '-'

def readKey (text : Text) : Option (Text × Text) :=
  match text with
  | '\x22' :: rest => readString true '\x22' 0 rest
  | '\x27' :: rest => readString false '\x27' 0 rest
  | other =>
    let key := other.takeWhile isBare
    if key.isEmpty then none else some (key, other.dropWhile isBare)

/-- Keys with dots between them, up to a number of them, and the text after them. -/
def readPath : Nat → Text → Option (List Text × Text)
  | 0, _ => none
  | parts + 1, text =>
    (readKey (skipSpace text)).bind fun (key, rest) =>
      match skipSpace rest with
      | '.' :: rest => (readPath parts rest).map fun (keys, rest) => (key :: keys, rest)
      | rest => some ([key], rest)

end SuiteScore.Settings.Toml
