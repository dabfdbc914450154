import SuiteScore.Text.Basic

/-! Blank characters, trimming, and the words that blanks separate. -/

namespace SuiteScore.Text

/-- The characters with the property White_Space. -/
def isBlank (c : Char) : Bool :=
  let n := c.toNat
  (9 ≤ n && n ≤ 13) || n == 0x20 || n == 0x85 || n == 0xA0 || n == 0x1680
    || (0x2000 ≤ n && n ≤ 0x200A) || n == 0x2028 || n == 0x2029 || n == 0x202F
    || n == 0x205F || n == 0x3000

def trimStart (text : Text) : Text :=
  text.dropWhile isBlank

/-- Dropping blanks makes no text longer. -/
theorem length_trimStart_le (text : Text) : (trimStart text).length ≤ text.length :=
  (List.dropWhile_sublist _).length_le

/-- The text without its last characters as far as they satisfy `drop`. -/
def dropEndWhile (drop : Char → Bool) (text : Text) : Text :=
  (text.reverse.dropWhile drop).reverse

def trimEnd (text : Text) : Text :=
  dropEndWhile isBlank text

def trim (text : Text) : Text :=
  trimEnd (trimStart text)

def tokens : Text → List Text
  | [] => []
  | c :: rest =>
    if isBlank c then tokens rest
    else
      match rest, tokens rest with
      | [], _ => [[c]]
      | d :: _, found =>
        if isBlank d then [c] :: found
        else
          match found with
          | [] => [[c]]
          | token :: others => (c :: token) :: others

/-- The pieces between commas, without blanks around them and without empty ones. -/
def commaPieces (text : Text) : List Text :=
  ((text.splitOn ',').map trim).filter fun piece => !piece.isEmpty

end SuiteScore.Text
