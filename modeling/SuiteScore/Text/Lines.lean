import SuiteScore.Text.Basic

/-! The lines of a text. -/

namespace SuiteScore.Text

/-- The lines of a text. A line feed ends a line, together with a carriage return directly before
it, and no line follows the last line feed. -/
def lines : Text → List Text
  | [] => []
  | '\n' :: rest => [] :: lines rest
  | '\r' :: '\n' :: rest => [] :: lines rest
  | c :: rest =>
    match lines rest with
    | [] => [[c]]
    | line :: others => (c :: line) :: others

end SuiteScore.Text
