import SuiteScore.Glob.Error
import SuiteScore.Path.Basic

/-! Patterns for paths. A star stands for any characters, a question mark for one, a class in
brackets for one of its characters, and two stars that are a whole part for any directories. -/

namespace SuiteScore.Glob

open Text

-----------------------------------------------------------------------------------------
-- Tokens
-----------------------------------------------------------------------------------------

/-- What a class in brackets admits. -/
inductive ClassItem where
  | char (c : Char)
  | range (first last : Char)
deriving DecidableEq, Repr

def ClassItem.admits (c : Char) : ClassItem → Bool
  | char item => c == item
  | range first last => decide (first ≤ c) && decide (c ≤ last)

/-- One element of a pattern. -/
inductive Token where
  | char (c : Char)
  | anyChar
  | anyChars
  | anyDirectories
  | among (items : List ClassItem)
  | except (items : List ClassItem)
deriving DecidableEq, Repr

/-- The items of a class: three characters with a hyphen between are a range. -/
def classItems : Text → List ClassItem
  | first :: '-' :: last :: rest => .range first last :: classItems rest
  | c :: rest => .char c :: classItems rest
  | [] => []

/-- The token of a class and the text after it, given the text after the opening bracket. A closing
bracket directly at the start belongs to the class. -/
def readClass (text : Text) : Option (Token × Text) :=
  match text with
  | '!' :: first :: rest =>
    (cut? ']' rest).map fun (items, after) => (.except (classItems (first :: items)), after)
  | ['!'] => none
  | first :: rest =>
    (cut? ']' rest).map fun (items, after) => (.among (classItems (first :: items)), after)
  | [] => none

/-- A class leaves less than there was. -/
theorem length_of_readClass {text rest : Text} {token : Token}
    (h : readClass text = some (token, rest))
    : rest.length < text.length := by
  unfold readClass at h
  split at h
  · obtain ⟨parts, hp, he⟩ := Option.map_eq_some_iff.mp h
    have hl := length_of_cut? hp
    cases he
    simp only [List.length_cons]
    omega
  · cases h
  · obtain ⟨parts, hp, he⟩ := Option.map_eq_some_iff.mp h
    have hl := length_of_cut? hp
    cases he
    simp only [List.length_cons]
    omega
  · cases h

/-- The tokens of a text that starts at a position, after the character before it. Two stars must
be a whole part between slashes, and take the slash after them along. -/
def readTokens (position : Nat) (before : Option Char) (text : Text)
    : Except PatternError (List Token) :=
  match text with
  | [] => .ok []
  | '?' :: rest => (readTokens (position + 1) (some '?') rest).map (.anyChar :: ·)
  | '*' :: '*' :: '*' :: _ => .error ⟨position + 2, .tooManyStars⟩
  | '*' :: '*' :: rest =>
    if before = none ∨ before = some '/' then
      match rest with
      | [] => .ok [.anyDirectories]
      | '/' :: rest =>
        (readTokens (position + 3) (some '/') rest).map (.anyDirectories :: ·)
      | _ => .error ⟨position + 2, .partialRecursion⟩
    else .error ⟨position - 1, .partialRecursion⟩
  | '*' :: rest => (readTokens (position + 1) (some '*') rest).map (.anyChars :: ·)
  | '[' :: rest =>
    match hc : readClass rest with
    | none => .error ⟨position, .invalidClass⟩
    | some (token, after) =>
      have : after.length < rest.length := length_of_readClass hc
      (readTokens (position + 1 + (rest.length - after.length)) (some ']') after).map (token :: ·)
  | c :: rest => (readTokens (position + 1) (some c) rest).map (.char c :: ·)
termination_by text.length

-----------------------------------------------------------------------------------------
-- Matching
-----------------------------------------------------------------------------------------

def ends : Text → List Text
  | [] => [[]]
  | c :: rest => (c :: rest) :: ends rest

def matchTokens : List Token → Text → Bool
  | [], name => name.isEmpty
  | .anyChars :: tokens, name => (ends name).any fun rest => matchTokens tokens rest
  | .char c :: tokens, name =>
    match name with
    | [] => false
    | d :: rest => c == d && matchTokens tokens rest
  | .anyChar :: tokens, name =>
    match name with
    | [] => false
    | _ :: rest => matchTokens tokens rest
  | .among items :: tokens, name =>
    match name with
    | [] => false
    | d :: rest => items.any (·.admits d) && matchTokens tokens rest
  | .except items :: tokens, name =>
    match name with
    | [] => false
    | d :: rest => !items.any (·.admits d) && matchTokens tokens rest
  | .anyDirectories :: _, _ => false

-----------------------------------------------------------------------------------------
-- Patterns
-----------------------------------------------------------------------------------------

/-- A part of a pattern between slashes: a name, a wildcard, or any directories. -/
inductive Part where
  | literal (name : Text)
  | wild (tokens : List Token)
  | directories
deriving DecidableEq, Repr

namespace Part

def ofTokens (part : Text) (tokens : List Token) : Part :=
  if tokens = [.anyDirectories] then .directories
  else if tokens.all fun token => match token with
    | .char _ => true
    | _ => false
  then .literal part
  else .wild tokens

def ofText (part : Text) : Except PatternError Part :=
  (readTokens 0 none part).map (ofTokens part)

def matchesName (name : Text) : Part → Bool
  | literal own => own == name
  | wild tokens => matchTokens tokens name
  | directories => false

/-- Whether the part can also match the directory itself and the one above it: only with a dot at
its start. -/
def startsWithDot : Part → Bool
  | wild (.char '.' :: _) => true
  | _ => false

end Part

/-- A pattern by its parts. A slash at its end asks for directories. -/
structure Pattern where
  parts : List Part
  directoryOnly : Bool
  absolute : Bool
deriving DecidableEq, Repr

namespace Pattern

/-- The parts between slashes. A slash at the end opens no further part, and no text is one part. -/
def texts (text : Text) : List Text :=
  let parts := text.splitOn '/'
  if text ≠ [] ∧ parts.getLast? = some [] then parts.dropLast else parts

def readParts : List Text → Except PatternError (List Part)
  | [] => .ok []
  | text :: rest =>
    match Part.ofText text with
    | .error error => .error error
    | .ok part => (readParts rest).map (part :: ·)

def collapse : List Part → List Part
  | .directories :: .directories :: rest => collapse (.directories :: rest)
  | part :: rest => part :: collapse rest
  | [] => []

/-- Reads a pattern: first as a whole, then part by part. -/
def ofText (text : Text) : Except PatternError Pattern :=
  match readTokens 0 none text with
  | .error error => .error error
  | .ok _ =>
    let absolute := Path.isAbsolute text
    (readParts (texts (if absolute then text.drop 1 else text))).map fun parts =>
      { parts := collapse parts, directoryOnly := decide (text.getLast? = some '/'), absolute }

end Pattern

end SuiteScore.Glob
