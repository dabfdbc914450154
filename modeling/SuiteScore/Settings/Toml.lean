import SuiteScore.Settings.Toml.Outline
import SuiteScore.Settings.Toml.Quoted
import SuiteScore.Settings.Toml.Word

/-! Settings files in TOML. Readers take a text and give what they read and the text after it. The
number of steps is bounded, for which the length of the file is enough. -/

namespace SuiteScore.Settings.Toml

open Text

def maxDepth : Nat := 80

def maxParts : Nat := 80

mutual

/-- A value within which a number of brackets can be open at once, and the text after it. -/
def readValue : (steps depth : Nat) → Text → Option (Value × Text)
  | 0, _, _ => none
  | steps + 1, depth, text =>
    match text, depth with
    | '\x22' :: '\x22' :: '\x22' :: rest, _ =>
      (readLongString true '\x22' rest).map fun (own, rest) => (.text own, rest)
    | '\x27' :: '\x27' :: '\x27' :: rest, _ =>
      (readLongString false '\x27' rest).map fun (own, rest) => (.text own, rest)
    | '\x22' :: rest, _ => (readString true '\x22' 0 rest).map fun (own, rest) => (.text own, rest)
    | '\x27' :: rest, _ =>
      (readString false '\x27' 0 rest).map fun (own, rest) => (.text own, rest)
    | '[' :: rest, depth + 1 =>
      (readItems steps depth rest).map fun (items, rest) => (.list items, rest)
    | '\x7b' :: rest, depth + 1 =>
      (readPairs steps depth [] rest).map fun (entries, rest) => (.table .closed entries, rest)
    | other, _ => (wordValue? (cutWord other).1).map (·, (cutWord other).2)

/-- The items of a list up to its closing bracket. A comma can follow the last. -/
def readItems : (steps depth : Nat) → Text → Option (List Value × Text)
  | 0, _, _ => none
  | steps + 1, depth, text =>
    (skipLines false text).bind fun text =>
      match text with
      | ']' :: rest => some ([], rest)
      | other =>
        (readValue steps depth other).bind fun (item, rest) =>
          (skipLines false rest).bind fun rest =>
            match rest with
            | ',' :: rest =>
              (readItems steps depth rest).map fun (items, rest) => (item :: items, rest)
            | ']' :: rest => some ([item], rest)
            | _ => none

/-- The entries of a table up to its closing brace, added to those before them. A comma can follow
the last, and lines can end between any two signs. -/
def readPairs : (steps depth : Nat) → Table → Text → Option (Table × Text)
  | 0, _, _, _ => none
  | steps + 1, depth, entries, text =>
    (skipLines false text).bind fun text =>
      match text with
      | '\x7d' :: rest => some (entries, rest)
      | other =>
        (readPath maxParts other).bind fun (path, rest) =>
          (skipLines false rest).bind fun rest =>
            match rest with
            | '=' :: rest =>
              (skipLines false rest).bind fun rest =>
                (readValue steps depth rest).bind fun (value, rest) =>
                  (assign value path entries).bind fun entries =>
                    (skipLines false rest).bind fun rest =>
                      match rest with
                      | ',' :: rest => readPairs steps depth entries rest
                      | '\x7d' :: rest => some (entries, rest)
                      | _ => none
            | _ => none

end

/-- The path of a header up to its closing brackets, and the text after them. -/
def readHeader (item : Bool) (text : Text) : Option (List Text × Text) :=
  (readPath maxParts text).bind fun (path, rest) =>
    if item then ((("]]" : Text).isPrefixOf? rest)).map (path, ·)
    else ((("]" : Text).isPrefixOf? rest)).map (path, ·)

/-- Reads the lines of a document: entries of the table that the last header opened, and
headers. -/
def readLines : (steps : Nat) → List Text → Table → Text → Option Table
  | 0, _, _, _ => none
  | steps + 1, current, document, text =>
    match skipLines false text with
    | none => none
    | some [] => some document
    | some ('[' :: rest) =>
      let item := rest.head? == some '['
      (readHeader item (if item then rest.drop 1 else rest)).bind fun (path, rest) =>
        (openHeader item path document).bind fun document =>
          (endLine rest).bind (readLines steps path document)
    | some text =>
      (readPath maxParts text).bind fun (path, rest) =>
        match rest with
        | '=' :: rest =>
          (readValue steps maxDepth (skipSpace rest)).bind fun (value, rest) =>
            (changeAt (assign value path) current document).bind fun document =>
              (endLine rest).bind (readLines steps current document)
        | _ => none

/-- Reads a document. A byte order mark can stand before it. -/
def read (text : Text) : Option Value :=
  let text := match text with
    | '\ufeff' :: rest => rest
    | other => other
  (readLines (text.length + 1) [] [] text).map (.table .headed)

end SuiteScore.Settings.Toml
