import SuiteScore.Settings.Digits

/-! Scalars of files that leave types open. What a scalar stands for is decided where it is used: a
setting that takes a number reads its text as one. -/

namespace SuiteScore.Settings

open Text

/-- How a scalar is written. -/
inductive Style where
  | plain
  | quoted
  /-- As a block whose lines are kept. -/
  | literal
  /-- As a block whose lines are joined. -/
  | folded
deriving DecidableEq, Repr

/-- A scalar: how it is written, the type it is tagged with, and its text. -/
structure Scalar where
  style : Style
  tag : Option Text
  text : Text
deriving DecidableEq, Repr

def magnitude? (digits : Text) : Option Nat :=
  match bases.findSome? fun (mark, base) => (mark.isPrefixOf? digits).map (base, ·) with
  | some (base, rest) => digitsIn? base rest
  | none => if hasIdleZero digits then none else nat? digits

/-- The integer that a word stands for, if it fits into 64 bits. -/
def wordInt? (word : Text) : Option Int :=
  let value := match word with
    | '-' :: digits => (magnitude? digits).map fun n => -(n : Int)
    | '+' :: digits => (magnitude? digits).map Int.ofNat
    | digits => (magnitude? digits).map Int.ofNat
  value.filter fits

def wordBool? (word : Text) : Option Bool :=
  if ([("true" : Text), "True", "TRUE"]).contains word then some true
  else if ([("false" : Text), "False", "FALSE"]).contains word then some false
  else none

def isNullWord (word : Text) : Bool :=
  ([("~" : Text), "null", "Null", "NULL"]).contains word

def commonTag : Text := "tag:yaml.org,2002:"

def tagOf (type : Text) : Text :=
  commonTag ++ type

namespace Scalar

def nothing : Scalar :=
  { style := .plain, tag := none, text := [] }

def isNothing (scalar : Scalar) : Bool :=
  scalar.style == .plain && scalar.text.isEmpty

/-- Whether the text can be read as a type: it is plain, or a literal block with the tag of the
type. -/
def canBe (type : Text) (scalar : Scalar) : Bool :=
  scalar.style == .plain || (scalar.style == .literal && scalar.tag == some (tagOf type))

/-- The scalar as an integer, if it fits into 64 bits. -/
def int? (scalar : Scalar) : Option Int :=
  if scalar.canBe "int" then wordInt? scalar.text else none

def bool? (scalar : Scalar) : Option Bool :=
  if scalar.canBe "bool" then wordBool? scalar.text else none

/-- Whether a setting that may be missing is missing although its key is there; nothing if the tag
says so and the text does not. -/
def isNull? (scalar : Scalar) : Option Bool :=
  if scalar.style ≠ .plain then some false
  else
    match scalar.tag with
    | none => some (scalar.text.isEmpty || isNullWord scalar.text)
    | some tag =>
      if tag ≠ tagOf "null" then some false
      else if isNullWord scalar.text then some true
      else none

end Scalar

end SuiteScore.Settings
