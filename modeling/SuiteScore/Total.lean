/-! Sums of a measure over the entries of a list: `tally` where the measure counts, `total` where it
can also be negative. -/

namespace SuiteScore

def tally (count : α → Nat) : List α → Nat
  | [] => 0
  | first :: rest => count first + tally count rest

def total (measure : α → Int) : List α → Int
  | [] => 0
  | first :: rest => measure first + total measure rest

end SuiteScore
