import SuiteScore.Proofs.Text.Cut
import SuiteScore.Proofs.Text.Decimal
import SuiteScore.Target

/-! A location gives back the path and the line it was made of. -/

namespace SuiteScore

open Text

namespace Location

/-- The last colon of a location stands before the digits of the line. -/
theorem cutLast?_ofLine (path : Text) (line : Nat)
    : cutLast? ':' (ofLine path line) = some (path, ofNat line) := by
  have hcolon : ':' ∉ ofNat line := fun hc => by cases isDigit_of_mem_ofNat hc
  have hline : ofLine path line = path ++ ':' :: ofNat line := by simp [ofLine]
  rw [hline]
  exact cutLast?_append hcolon

/-- A location gives back its path. -/
theorem path_ofLine (path : Text) (line : Nat) : Location.path (ofLine path line) = path := by
  have hdigits : (ofNat line).all Char.isDigit = true :=
    List.all_eq_true.mpr fun c hc => isDigit_of_mem_ofNat hc
  simp only [Location.path, cutLast?_ofLine, hdigits, if_true]

/-- A location gives back its line, as far as it fits into a word. -/
theorem line_ofLine {line : Nat} (path : Text) (h : line < wordBound)
    : Location.line (ofLine path line) = line := by
  simp only [Location.line, cutLast?_ofLine, word?_ofNat h, Option.getD_some]

end Location

end SuiteScore
