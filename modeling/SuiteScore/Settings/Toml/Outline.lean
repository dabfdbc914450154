import SuiteScore.Settings.Value

/-! How the tables of a TOML document grow: by headers, by dotted keys and by values. -/

namespace SuiteScore.Settings.Toml

/-- Gives a value to the keys of a path below a table. Only tables without a header of their own
and the last item of a list of tables can be passed, but the table that takes the value is new or
was on the way of other dotted keys, and no value is given twice. -/
def assign (value : Value) : List Text → Table → Option Table
  | [], _ => none
  | [key], table => if (table.get? key).isSome then none else some (table.add key value)
  | key :: path, table =>
    match table.get? key with
    | none => (assign value path []).map fun inner => table.add key (.table .dotted inner)
    | some (.table origin inner) =>
      if origin = .dotted ∨ (origin = .passed ∧ path.length > 1) then
        (assign value path inner).map fun inner => table.set key (.table origin inner)
      else none
    | some (.tables items) =>
      match items.getLast? with
      | some (.table origin inner) =>
        if path.length > 1 then
          (assign value path inner).map fun inner =>
            table.set key (.tables (items.dropLast ++ [.table origin inner]))
        else none
      | _ => none
    | some _ => none

/-- Changes the table that headers have led to: the last item where a list of tables is passed. -/
def changeAt (change : Table → Option Table) : List Text → Table → Option Table
  | [], table => change table
  | key :: path, table =>
    match table.get? key with
    | some (.table origin inner) =>
      if origin = .closed then none
      else (changeAt change path inner).map fun inner => table.set key (.table origin inner)
    | some (.tables items) =>
      match items.getLast? with
      | some (.table origin inner) =>
        (changeAt change path inner).map fun inner =>
          table.set key (.tables (items.dropLast ++ [.table origin inner]))
      | _ => none
    | _ => none

def pass : List Text → Table → Option Table
  | [], table => some table
  | key :: path, table =>
    match table.get? key with
    | none => (pass path []).map fun inner => table.add key (.table .passed inner)
    | some _ => changeAt (pass path) [key] table

/-- Opens the table of a header. It must be new, or only passed until now. -/
def openTable (key : Text) (table : Table) : Option Table :=
  match table.get? key with
  | none => some (table.add key (.table .headed []))
  | some (.table .passed inner) => some (table.set key (.table .headed inner))
  | some _ => none

def openItem (key : Text) (table : Table) : Option Table :=
  match table.get? key with
  | none => some (table.add key (.tables [.table .headed []]))
  | some (.tables items) => some (table.set key (.tables (items ++ [.table .headed []])))
  | some _ => none

def openHeader (item : Bool) (path : List Text) (document : Table) : Option Table :=
  match path.getLast? with
  | none => none
  | some key =>
    (pass path.dropLast document).bind
      (changeAt (if item then openItem key else openTable key) path.dropLast)

end SuiteScore.Settings.Toml
