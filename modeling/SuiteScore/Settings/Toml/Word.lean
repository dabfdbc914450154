import SuiteScore.Settings.Value

/-! Values without quotes in TOML files: truth values, numbers, and dates and times. -/

namespace SuiteScore.Settings.Toml

open Text

-----------------------------------------------------------------------------------------
-- Integers
-----------------------------------------------------------------------------------------

def joinDigits (isDigit : Char → Bool) (text : Text) : Option Text :=
  let groups := text.splitOn '_'
  if groups.all fun group => !group.isEmpty && group.all isDigit then some groups.flatten
  else none

def splitSign (text : Text) : Text × Text :=
  match text with
  | '-' :: rest => (['-'], rest)
  | '+' :: rest => (['+'], rest)
  | other => ([], other)

/-- The size of a number without its sign: digits in ten or, without sign, in another base. -/
def readSize (signed : Bool) (digits : Text) : Option Nat :=
  match bases.findSome? fun (mark, base) => (mark.isPrefixOf? digits).map (base, ·) with
  | some (base, digits) =>
    if signed then none else (joinDigits Char.isAlphanum digits).bind (digitsIn? base)
  | none =>
    (joinDigits Char.isDigit digits).bind fun digits =>
      if hasIdleZero digits then none else nat? digits

/-- Two to the power of 128. -/
def longBound : Nat := 340282366920938463463374607431768211456

/-- An integer of at most 128 bits. That a setting takes 64 bits is for its reading to say. -/
def readInt (word : Text) : Option Int :=
  let (sign, digits) := splitSign word
  (readSize (!sign.isEmpty) digits).bind fun size =>
    if sign = ("-" : Text) then if 2 * size ≤ longBound then some (-(size : Int)) else none
    else if size < longBound then some (size : Int) else none

-----------------------------------------------------------------------------------------
-- Numbers with a fraction or an exponent
-----------------------------------------------------------------------------------------

/-- The least size of a number that is too large for 64 bits: from there on the nearest number
would be two to the power of 1024. -/
def floatBound : Nat :=
  Nat.shiftLeft 18014398509481983 970

def floatDigits : Nat := 309

/-- Whether a number is below the bound, given its digits without the point, and the place of the
point counted from their start. -/
def isBelowBound (digits : Text) (point : Int) : Bool :=
  let shown := digits.dropWhile (· == '0')
  let whole := point - ((digits.length - shown.length : Nat) : Int)
  if shown.isEmpty || decide (whole < (floatDigits : Int)) then true
  else if (floatDigits : Int) < whole then false
  else
    let padded := (shown ++ List.replicate floatDigits '0').take floatDigits
    (nat? padded).any fun size => decide (size < floatBound)

/-- A signed number of decimal digits, with underscores between them. -/
def readExponent (text : Text) : Option Int :=
  let (sign, digits) := splitSign text
  (joinDigits Char.isDigit digits).bind fun digits =>
    (nat? digits).map fun size => if sign = ("-" : Text) then -(size : Int) else (size : Int)

/-- The digits before and after the point of a number without sign and exponent; the point is left
out only before an exponent. -/
def readMantissa (withPoint : Bool) (text : Text) : Option (Text × Text) :=
  let whole? (digits : Text) : Option Text :=
    (joinDigits Char.isDigit digits).filter fun digits => !hasIdleZero digits
  match cut? '.' text with
  | some (whole, fraction) =>
    (whole? whole).bind fun whole => (joinDigits Char.isDigit fraction).map (whole, ·)
  | none => if withPoint then none else (whole? text).map (·, [])

/-- Whether a word is a number with a fraction, an exponent or both that is not too large, or is
no finite number. -/
def isFloat (word : Text) : Bool :=
  let (_, size) := splitSign word
  let size := size.map fun c => if c = 'E' then 'e' else c
  let isSmall (mantissa : Option (Text × Text)) (exponent : Option Int) : Bool :=
    match mantissa, exponent with
    | some (whole, fraction), some exponent =>
      isBelowBound (whole ++ fraction) ((whole.length : Int) + exponent)
    | _, _ => false
  match cut? 'e' size with
  | some (mantissa, exponent) => isSmall (readMantissa false mantissa) (readExponent exponent)
  | none =>
    size == ("inf" : Text) || size == ("nan" : Text) || isSmall (readMantissa true size) (some 0)

-----------------------------------------------------------------------------------------
-- Dates and times
-----------------------------------------------------------------------------------------

def twoDigits? (text : Text) : Option Nat :=
  if text.length = 2 then nat? text else none

def daysOf (year month : Nat) : Nat :=
  let isLong := year % 4 = 0 ∧ (year % 100 ≠ 0 ∨ year % 400 = 0)
  if month = 2 then if isLong then 29 else 28
  else if month = 4 ∨ month = 6 ∨ month = 9 ∨ month = 11 then 30
  else 31

/-- Whether a text is a date of ten characters. -/
def isDay (text : Text) : Bool :=
  match text.splitOn '-' with
  | [year, month, day] =>
    match nat? year, twoDigits? month, twoDigits? day with
    | some year', some month, some day =>
      year.length == 4 && decide (1 ≤ month) && decide (month ≤ 12) && decide (1 ≤ day)
        && decide (day ≤ daysOf year' month)
    | _, _, _ => false
  | _ => false

/-- Whether a text is a number of two digits of which there are a number from zero on. -/
def isBelow (bound : Nat) (text : Text) : Bool :=
  (twoDigits? text).any fun n => decide (n < bound)

/-- Whether a text is the seconds of a time, with or without a fraction. There can be a leap
second. -/
def isSecond (text : Text) : Bool :=
  match cut? '.' text with
  | some (second, fraction) => isBelow 61 second && (nat? fraction).isSome
  | none => isBelow 61 text

/-- Whether a text is a time. The seconds can be left out. -/
def isTime (text : Text) : Bool :=
  match text.splitOn ':' with
  | [hour, minute] => isBelow 24 hour && isBelow 60 minute
  | [hour, minute, second] => isBelow 24 hour && isBelow 60 minute && isSecond second
  | _ => false

/-- Whether a text is a time with the distance of its zone, or with none. -/
def isZonedTime (text : Text) : Bool :=
  match text.span fun c => !("Zz+-" : Text).contains c with
  | (time, []) => isTime time
  | (time, sign :: zone) =>
    let isZone := if sign = 'Z' ∨ sign = 'z' then zone.isEmpty else
      match zone.splitOn ':' with
      | [hour, minute] => isBelow 24 hour && isBelow 60 minute
      | _ => false
    isTime time && isZone

def isDate (word : Text) : Bool :=
  match word.span fun c => !("Tt " : Text).contains c with
  | (day, []) => isDay day || isTime day
  | (day, _ :: time) => isDay day && isZonedTime time

-----------------------------------------------------------------------------------------
-- Words
-----------------------------------------------------------------------------------------

def isWordChar (c : Char) : Bool :=
  c.isAlphanum || ("_-+.:" : Text).contains c

/-- A word without quotes and the text after it. A date and a time make one word although a space
stands between them. -/
def cutWord (text : Text) : Text × Text :=
  let (word, rest) := text.span isWordChar
  match rest with
  | ' ' :: c :: more =>
    if isDay word && c.isDigit then
      let (time, rest) := (c :: more).span isWordChar
      (word ++ ' ' :: time, rest)
    else (word, rest)
  | _ => (word, rest)

def wordValue? (word : Text) : Option Value :=
  if word = ("true" : Text) then some (.bool true)
  else if word = ("false" : Text) then some (.bool false)
  else
    match readInt word with
    | some n => some (.int n)
    | none => if isFloat word then some .float else if isDate word then some .date else none

end SuiteScore.Settings.Toml
