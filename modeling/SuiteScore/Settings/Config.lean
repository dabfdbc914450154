import SuiteScore.Rule.Override
import SuiteScore.Settings.Toml
import SuiteScore.Settings.Yaml

/-! The settings that a file can give. -/

namespace SuiteScore.Settings

open Text

/-- What a settings file says; what it leaves out is for others to decide. -/
structure Config where
  features : Option (List Text)
  support : Option (List Text)
  output : Option Text
  threshold : Option Int
  overrides : Overrides
deriving DecidableEq, Repr

def Config.empty : Config :=
  { features := none, support := none, output := none, threshold := none, overrides := [] }

/-- The formats of settings files. -/
inductive Format where
  | toml
  | yaml
deriving DecidableEq, Repr

/-- A value of a table that may be missing. A key that is there twice, or has a value of the wrong
type, makes the whole table wrong. -/
def optional? (read : Value → Option α) (key : Text) (table : Table) : Option (Option α) :=
  match table.filter fun entry => entry.1 = key with
  | [] => some none
  | [(_, value)] =>
    value.isNull?.bind fun isNull => if isNull then some none else (read value).map some
  | _ => none

/-- The change of one rule. In one of the formats its two parts can be the first items of a list,
and a date says nothing of either. -/
def override? (format : Format) (value : Value) : Option Override :=
  match format, value with
  | .toml, .list (weight :: enabled :: _) =>
    weight.int?.bind fun weight =>
      enabled.bool?.map fun enabled => { weight := some weight, enabled := some enabled }
  | .toml, .date => some { weight := none, enabled := none }
  | _, _ =>
    value.table?.bind fun table =>
      (optional? Value.int? "score" table).bind fun weight =>
        (optional? Value.bool? "enabled" table).map fun enabled => { weight, enabled }

def setOverride (id : Text) (override : Override) (overrides : Overrides) : Overrides :=
  overrides.filter (fun entry => entry.1 != id) ++ [(id, override)]

def overridesOf? (format : Format) (table : Table) : Option Overrides :=
  table.foldlM
    (fun overrides (id, value) =>
      (override? format value).map fun override => setOverride id override overrides)
    []

/-- The changes of rules in a settings file, which may have none. -/
def rules? (format : Format) (table : Table) : Option Overrides :=
  match table.filter fun entry => entry.1 = ("rules" : Text) with
  | [] => some []
  | [(_, value)] => value.table?.bind (overridesOf? format)
  | _ => none

/-- The settings in a value. Keys that are no setting are passed over. -/
def Config.ofValue? (format : Format) (value : Value) : Option Config :=
  value.table?.bind fun table =>
    (optional? Value.texts? "features" table).bind fun features =>
      (optional? Value.texts? "support" table).bind fun support =>
        (optional? Value.text? "output" table).bind fun output =>
          (optional? Value.int? "threshold" table).bind fun threshold =>
            (rules? format table).map fun overrides =>
              { features, support, output, threshold, overrides }

def Config.ofText? (format : Format) (text : Text) : Option Config :=
  let value := match format with
    | .toml => Toml.read text
    | .yaml => Yaml.read text
  value.bind (ofValue? format)

end SuiteScore.Settings
