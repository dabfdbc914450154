import SuiteScore.Text.Basic

/-! Decimal numbers as text. -/

namespace SuiteScore.Text

def ofNat (n : Nat) : Text :=
  Nat.toDigits 10 n

/-- An integer in decimal digits, with a minus sign when it is negative. -/
def ofInt : Int → Text
  | .ofNat n => ofNat n
  | .negSucc n => '-' :: ofNat (n + 1)

def ofSignedInt : Int → Text
  | .ofNat n => '+' :: ofNat n
  | .negSucc n => '-' :: ofNat (n + 1)

/-- The number that a non-empty run of the ten ASCII digits stands for. -/
def nat? (text : Text) : Option Nat :=
  if text.isEmpty || !text.all Char.isDigit then none
  else some (text.foldl (fun value c => 10 * value + (c.toNat - '0'.toNat)) 0)

/-- Two to the power of 64. -/
def wordBound : Nat := 18446744073709551616

/-- Two to the power of 63. -/
def signedBound : Int := 9223372036854775808

/-- A number with an optional plus sign, below two to the power of 64. -/
def word? (text : Text) : Option Nat :=
  let digits := match text with
    | '+' :: rest => rest
    | other => other
  (nat? digits).filter (· < wordBound)

/-- Whether the integer fits into 64 bits with a sign. -/
def fits (value : Int) : Bool :=
  decide (-signedBound ≤ value) && decide (value < signedBound)

/-- An integer with an optional sign that fits into 64 bits. -/
def int? (text : Text) : Option Int :=
  let value := match text with
    | '-' :: rest => (nat? rest).map fun n => -(n : Int)
    | '+' :: rest => (nat? rest).map Int.ofNat
    | other => (nat? other).map Int.ofNat
  value.filter fits

end SuiteScore.Text
