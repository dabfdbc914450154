import SuiteScore.Text.Decimal

/-! Digits in bases up to sixteen, and characters that are given by their codes. -/

namespace SuiteScore.Settings

open Text

/-- The number that a run of digits stands for in a base of at most sixteen. -/
def digitsIn? (base : Nat) (text : Text) : Option Nat :=
  let digit (c : Char) : Nat :=
    if c.isDigit then c.toNat - '0'.toNat
    else if 'a' ≤ c ∧ c ≤ 'f' then c.toNat - 'a'.toNat + 10
    else if 'A' ≤ c ∧ c ≤ 'F' then c.toNat - 'A'.toNat + 10
    else 16
  if text.isEmpty || text.any (fun c => base ≤ digit c) then none
  else some (text.foldl (fun value c => base * value + digit c) 0)

def bases : List (Text × Nat) :=
  [("0x", 16), ("0o", 8), ("0b", 2)]

/-- Whether digits start with a zero that is not the whole number. -/
def hasIdleZero (digits : Text) : Bool :=
  digits.length > 1 && digits.head? == some '0'

def charOf? (code : Nat) : Option Char :=
  if code < 0xD800 ∨ (0xDFFF < code ∧ code < 0x110000) then some (Char.ofNat code) else none

/-- The number of hexadecimal digits after a letter that starts the code of a character, none if the
letter starts no code. -/
def codeSize (letter : Char) : Nat :=
  if letter = 'x' then 2 else if letter = 'u' then 4 else if letter = 'U' then 8 else 0

/-- The character whose code a number of hexadecimal digits at the start of a text give. -/
def charOfHex? (size : Nat) (text : Text) : Option Char :=
  if text.length < size then none else (digitsIn? 16 (text.take size)).bind charOf?

end SuiteScore.Settings
