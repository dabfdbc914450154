import SuiteScore.Settings.Scalar

/-! Values of settings files, whatever the format. -/

namespace SuiteScore.Settings

open Text

/-- How a table came about, which decides what may still be added to it. -/
inductive Origin where
  /-- Its own header was met. -/
  | headed
  /-- It is only on the way to a table with a header. -/
  | passed
  /-- It is on the way of a dotted key. -/
  | dotted
  /-- It was written as one value. -/
  | closed
deriving DecidableEq, Repr

/-- A value of a settings file. -/
inductive Value where
  | bool (value : Bool)
  | int (value : Int)
  | text (value : Text)
  /-- A number with a fraction or an exponent; no setting takes one. -/
  | float
  /-- A date, a time or both. -/
  | date
  /-- A scalar whose type is left open. -/
  | scalar (scalar : Scalar)
  | list (items : List Value)
  | table (origin : Origin) (entries : List (Text × Value))
  /-- Tables with headers that are items of a list; further items may follow. -/
  | tables (items : List Value)
  /-- A value that no setting takes. -/
  | unfit
deriving Repr

/-- The entries of a table in the order in which they were added. -/
abbrev Table := List (Text × Value)

namespace Table

def get? (table : Table) (key : Text) : Option Value :=
  (table.find? fun entry => entry.1 = key).map (·.2)

def set (table : Table) (key : Text) (value : Value) : Table :=
  table.map fun entry => if entry.1 = key then (key, value) else entry

def add (table : Table) (key : Text) (value : Value) : Table :=
  table ++ [(key, value)]

end Table

namespace Value

/-- Whether the value is missing although its key is there; nothing if it is neither missing nor
there. -/
def isNull? : Value → Option Bool
  | scalar own => own.isNull?
  | _ => some false

/-- The value as a text. Every scalar is one. -/
def text? : Value → Option Text
  | text own => some own
  | scalar own => some own.text
  | _ => none

/-- The value as an integer, if it fits into 64 bits. -/
def int? : Value → Option Int
  | int own => if fits own then some own else none
  | scalar own => own.int?
  | _ => none

def bool? : Value → Option Bool
  | bool own => some own
  | scalar own => own.bool?
  | _ => none

/-- The value as a list of texts. Nothing at all is an empty list. -/
def texts? : Value → Option (List Text)
  | list items => items.mapM text?
  | scalar own => if own.isNothing then some [] else none
  | _ => none

/-- The value as a table. Nothing at all is an empty table. -/
def table? : Value → Option Table
  | table _ entries => some entries
  | scalar own => if own.isNothing then some [] else none
  | _ => none

end Value

end SuiteScore.Settings
