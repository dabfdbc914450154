import SuiteScore.Rule.Basic

/-! The four weights of the built-in rules, and the form of their phrases. -/

namespace SuiteScore.Rule

/-- A defect after which nothing else about the target can be trusted. -/
def fatal : Int := 100

/-- A defect that makes the target useless. -/
def error : Int := 25

/-- Something that should be changed. -/
def warning : Int := 10

/-- Something to know about. -/
def info : Int := 1

/-- An enabled rule whose phrase starts with the word for the target. -/
def builtIn (id : Text) (weight : Int) (remark : Text) (trigger : Trigger) : Rule :=
  { id, phrase := classMark ++ " " ++ remark, weight, enabled := true, trigger }

end SuiteScore.Rule
