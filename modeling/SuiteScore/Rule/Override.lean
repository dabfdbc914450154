import SuiteScore.Rule.Basic

/-! Changes of weights and of what is enabled, by the identifiers of rules. -/

namespace SuiteScore

/-- A change of one rule; what it does not set stays. -/
structure Override where
  weight : Option Int
  enabled : Option Bool
deriving DecidableEq, Repr

/-- Changes by rule identifier. -/
abbrev Overrides := List (Text × Override)

namespace Rule

def change (rule : Rule) (override : Override) : Rule :=
  { rule with
    weight := override.weight.getD rule.weight
    enabled := override.enabled.getD rule.enabled }

end Rule

/-- Makes a change in the first rule with an identifier, if there is one. -/
def changeFirst (id : Text) (override : Override) : List Rule → List Rule
  | [] => []
  | rule :: rest =>
    if rule.id = id then rule.change override :: rest
    else rule :: changeFirst id override rest

def applyOverrides (overrides : Overrides) (rules : List Rule) : List Rule :=
  overrides.foldl (fun rules (id, override) => changeFirst id override rules) rules

end SuiteScore
