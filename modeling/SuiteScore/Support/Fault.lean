import SuiteScore.Text.Basic

/-! Why a block of a support file is not a hook or a step definition. -/

namespace SuiteScore.Support

/-- What every block must have: a line that is not blank, and an end. -/
inductive BlockFault where
  | empty
  | noEnd
deriving DecidableEq, Repr

/-- The causes for which a block is no hook. -/
inductive HookFault where
  | block (fault : BlockFault)
  | unknownType (word : Text)
  | unquotedTag
  | unclosedTag
  | unseparatedTag
  | noDo
  | unclosedParameters
  | textAfterDo (rest : Text)
deriving DecidableEq, Repr

/-- The causes for which a block is no step definition. -/
inductive StepDefinitionFault where
  | block (fault : BlockFault)
  | header (line : Text)
deriving DecidableEq, Repr

def BlockFault.message : BlockFault → Text
  | empty => "empty block"
  | noEnd => "missing closing `end`"

def HookFault.message : HookFault → Text
  | block fault => fault.message
  | unknownType word => "unknown hook type '" ++ word ++ "'"
  | unquotedTag => "tag arguments must be quoted strings"
  | unclosedTag => "unterminated string in tag arguments"
  | unseparatedTag => "expected ',' or ')' in tag arguments"
  | noDo => "expected `do` after hook declaration"
  | unclosedParameters => "unterminated block parameter list"
  | textAfterDo rest => "unexpected text after `do`: '" ++ rest ++ "'"

def StepDefinitionFault.message : StepDefinitionFault → Text
  | block fault => fault.message
  | header line => "unrecognized step definition header '" ++ line ++ "'"

end SuiteScore.Support
