import SuiteScore.Text.Decimal

/-! JSON values and the form in which they are written: one item a line, with two more blanks for
each level. -/

namespace SuiteScore

open Text

/-- A JSON value with integers for numbers. Members keep their order. -/
inductive Json where
  | null
  | bool (value : Bool)
  | int (value : Int)
  | text (value : Text)
  | list (items : List Json)
  | object (members : List (Text × Json))
deriving Repr

namespace Json

def nat (value : Nat) : Json :=
  int value

def texts (values : List Text) : Json :=
  list (values.map text)

def optional (encode : α → Json) : Option α → Json
  | some value => encode value
  | none => null

def controlDigits (c : Char) : Text :=
  [Nat.digitChar (c.toNat / 16), Nat.digitChar (c.toNat % 16)]

def escape (c : Char) : Text :=
  if c = '\x22' then "\\\""
  else if c = '\\' then "\\\\"
  else if c = '\n' then "\\n"
  else if c = '\r' then "\\r"
  else if c = '\t' then "\\t"
  else if c = '\x08' then "\\b"
  else if c = '\x0c' then "\\f"
  else if c.toNat < 32 then "\\u00" ++ controlDigits c
  else [c]

def quoted (value : Text) : Text :=
  '\x22' :: value.flatMap escape ++ ['\x22']

def newLine (level : Nat) : Text :=
  '\n' :: List.replicate (2 * level) ' '

mutual

def renderAt (level : Nat) : Json → Text
  | null => "null"
  | bool true => "true"
  | bool false => "false"
  | int value => ofInt value
  | text value => quoted value
  | list [] => "[]"
  | list (first :: rest) =>
    "[" ++ newLine (level + 1) ++ renderAt (level + 1) first ++ renderItems (level + 1) rest
      ++ newLine level ++ "]"
  | object [] => "\x7b\x7d"
  | object ((key, value) :: rest) =>
    "\x7b" ++ newLine (level + 1) ++ quoted key ++ ": " ++ renderAt (level + 1) value
      ++ renderMembers (level + 1) rest ++ newLine level ++ "\x7d"

def renderItems (level : Nat) : List Json → Text
  | [] => []
  | item :: rest => "," ++ newLine level ++ renderAt level item ++ renderItems level rest

def renderMembers (level : Nat) : List (Text × Json) → Text
  | [] => []
  | (key, value) :: rest =>
    "," ++ newLine level ++ quoted key ++ ": " ++ renderAt level value ++ renderMembers level rest

end

def render (value : Json) : Text :=
  renderAt 0 value

end Json

end SuiteScore
