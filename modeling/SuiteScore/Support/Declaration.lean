import SuiteScore.Support.Hook
import SuiteScore.Support.StepDefinition

/-! What the blocks of a support file declare. -/

namespace SuiteScore.Support

/-- A hook or a step definition. -/
inductive Declaration where
  | hook (hook : Hook)
  | stepDefinition (definition : StepDefinition)
deriving DecidableEq, Repr

namespace Declaration

def hook? : Declaration → Option Hook
  | hook own => some own
  | stepDefinition _ => none

def stepDefinition? : Declaration → Option StepDefinition
  | hook _ => none
  | stepDefinition own => some own

end Declaration

def Block.read (path : Text) (block : Block) : Except SuiteError Declaration :=
  let location := Location.ofLine path block.line
  match block.kind with
  | .hook => (Hook.ofBlock location block.lines).map .hook
  | .stepDefinition => (StepDefinition.ofBlock location block.lines).map .stepDefinition

def declarations (path source : Text) : List (Except SuiteError Declaration) :=
  (blocks source).map (Block.read path)

end SuiteScore.Support
