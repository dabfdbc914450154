import SuiteScore.Feature
import SuiteScore.Support.Hook
import SuiteScore.Support.StepDefinition

/-! Rules and what they say about a target. A rule counts how often it is triggered; each time
adds its weight to the score of the target. -/

namespace SuiteScore

open Text Support

/-- What a rule is applied to. A hook comes with all hooks of its suite, itself among them. -/
inductive Subject where
  | feature (feature : Feature)
  | scenario (scenario : Scenario)
  | hook (hook : Hook) (peers : List Hook)
  | stepDefinition (definition : StepDefinition)

def Subject.className : Subject → Text
  | feature _ => "Feature"
  | scenario own => own.className
  | hook .. => "Hook"
  | stepDefinition _ => "Step definition"

/-- What a rule counts, and on which kind of target. A step trigger is counted on every step line
of a scenario. -/
inductive Trigger where
  | feature (count : Feature → Nat)
  | scenario (count : Scenario → Nat)
  | step (count : Text → Nat)
  | hook (count : Hook → List Hook → Nat)
  | stepDefinition (count : StepDefinition → Nat)

namespace Trigger

def kind : Trigger → TargetKind
  | feature _ => .feature
  | scenario _ => .scenario
  | step _ => .step
  | hook _ => .hook
  | stepDefinition _ => .stepDefinition

def count : Trigger → Subject → Nat
  | feature count, .feature target => count target
  | scenario count, .scenario target => count target
  | step count, .scenario target => tally count target.steps
  | hook count, .hook target peers => count target peers
  | stepDefinition count, .stepDefinition target => count target
  | _, _ => 0

end Trigger

/-- A rule with the weight of one trigger. Negative weights are bonuses. The phrase holds a mark
in place of the word for the target. -/
structure Rule where
  id : Text
  phrase : Text
  weight : Int
  enabled : Bool
  trigger : Trigger

/-- What one rule says about one target: how often it was triggered and what that adds. -/
structure Hit where
  rule : Text
  phrase : Text
  count : Nat
  contribution : Int
deriving DecidableEq, Repr

namespace Rule

def classMark : Text := "\x7bclass\x7d"

def phraseFor (rule : Rule) (className : Text) : Text :=
  replace classMark className rule.phrase

def kind (rule : Rule) : TargetKind :=
  rule.trigger.kind

/-- The word for a subject in the phrase of the rule. Step rules speak of steps. -/
def wordFor (rule : Rule) (subject : Subject) : Text :=
  match rule.trigger with
  | .step _ => TargetKind.step.text
  | _ => subject.className

/-- What the rule says about a subject, if it is triggered at all. -/
def hit? (rule : Rule) (subject : Subject) : Option Hit :=
  let count := rule.trigger.count subject
  if count = 0 then none
  else
    some {
      rule := rule.id
      phrase := rule.phraseFor (rule.wordFor subject)
      count
      contribution := count * rule.weight }

end Rule

/-- What the enabled rules say about a subject, in the order of the rules. -/
def evaluate (rules : List Rule) (subject : Subject) : List Hit :=
  (rules.filter (·.enabled)).filterMap (·.hit? subject)

end SuiteScore
