import SuiteScore.Text.Decimal

/-! Why a text is not a pattern for paths. -/

namespace SuiteScore.Glob

open Text

/-- The causes for which a pattern is refused. -/
inductive Fault where
  | tooManyStars
  | partialRecursion
  | invalidClass
deriving DecidableEq, Repr

/-- A fault and the number of characters before it. -/
structure PatternError where
  position : Nat
  fault : Fault
deriving DecidableEq, Repr

def Fault.message : Fault → Text
  | tooManyStars => "wildcards are either regular `*` or recursive `**`"
  | partialRecursion => "recursive wildcards must form a single path component"
  | invalidClass => "invalid range pattern"

def PatternError.message (error : PatternError) : Text :=
  "Pattern syntax error near position " ++ ofNat error.position ++ ": " ++ error.fault.message

end SuiteScore.Glob
