import SuiteScore.Text.Basic

/-! Ranges of character codes, the form in which the tables of character properties are kept. -/

namespace SuiteScore.Text

def inRanges (ranges : List (Nat × Nat)) (code : Nat) : Bool :=
  ranges.any fun (first, last) => first ≤ code && code ≤ last

end SuiteScore.Text
